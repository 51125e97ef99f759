import TsnGen.Handles

namespace TsnGen

/-!
# Objects on a shared table

Objects hold at most one handle each in a table that they share with each other
and with other code.  An object that answers as one with a handle of its own
does so beside all others, in any order of calls: no two objects hold one
number, none uses a number that is closed or is not its own, and a handle is
left behind only by opening an object that holds one.
-/

/-- Objects that hold at most one handle each. -/
structure HandleClass (D σ Q A : Type) where
  held : σ → Option Nat
  method : σ → Q → HandleProgram D (A × σ)
  opens : Q → Bool

/-- The table of one handle or none. -/
def HandleTable.owned :
    Option (Nat × D) → HandleTable D
  | none => .empty
  | some (number, item) =>
      Function.update HandleTable.empty number (some item)

namespace HandleTable

/-- The entry of a handle that is owned. -/
@[simp] theorem owned_self
    (number : Nat)
    (item : D) :
    owned (some (number, item)) number = some item :=
  Function.update_self number _ _

/-- What is owned is open, and nothing else. -/
theorem owned_ne_none_iff
    (own : Option (Nat × D))
    (number : Nat) :
    owned own number ≠ none ↔ own.map Prod.fst = some number := by
  cases own with
  | none =>
      simp [owned, empty]
  | some handle =>
      obtain ⟨handle, item⟩ := handle
      by_cases same : number = handle
      · subst same
        simp
      · have other : handle ≠ number := fun isNumber => same isNumber.symm
        simp [owned, empty, Function.update_of_ne same, other]

end HandleTable

namespace HandleProgram

variable {D α : Type}
variable {post : α → HandleTable D → Prop}
variable {offers : List (Option D)}

/-- Working on the handle that is owned. -/
theorem wp_work_owned
    {β : Type}
    {action : D → β × D}
    {next : β → HandleProgram D α}
    {number : Nat}
    {item : D}
    (rest :
      wp post (next (action item).1) offers
        (.owned (some (number, (action item).2)))) :
    wp post (.work number action next) offers
      (.owned (some (number, item))) := by
  refine ⟨item, HandleTable.owned_self number item, ?_⟩
  rw [HandleTable.owned, Function.update_idem]
  exact rest

/-- Closing the handle that is owned. -/
theorem wp_release_owned
    {next : HandleProgram D α}
    {number : Nat}
    {item : D}
    (rest : wp post next offers (.owned none)) :
    wp post (.release number next) offers
      (.owned (some (number, item))) := by
  refine ⟨item, HandleTable.owned_self number item, ?_⟩
  have closed :
      Function.update (HandleTable.empty : HandleTable D) number none =
        HandleTable.owned none :=
    Function.update_eq_self number _
  rw [HandleTable.owned, Function.update_idem, closed]
  exact rest

/-- Opening a handle where none is owned. -/
theorem wp_acquire_owned
    {next : Option Nat → HandleProgram D α}
    (refused :
      offers.head?.getD none = none →
        wp post (next none) offers.tail (.owned none))
    (acquired :
      ∀ (number : Nat) (item : D),
        offers.head?.getD none = some item →
          wp post (next (some number)) offers.tail
            (.owned (some (number, item)))) :
    wp post (.acquire next) offers (.owned none) := by
  cases offers with
  | nil =>
      trivial
  | cons offer offers =>
      cases offer with
      | none =>
          exact refused rfl
      | some item =>
          exact fun number _ => acquired number item rfl

end HandleProgram

/-- What an object with a handle of its own answers, and what it becomes. -/
structure AloneObject (D σ Q A τ : Type) where
  view : σ → HandleTable D → τ
  perform : Q → List (Option D) → τ → A × τ

namespace HandleClass

variable {D σ Q A τ : Type}

/--
What is right behind a method on a table of its own.  It answers as the object
does alone, its handle is all that is open then, and opening leaves behind the
handle that was held.
-/
structure Performed
    (cls : HandleClass D σ Q A)
    (object : AloneObject D σ Q A τ)
    (state : σ)
    (request : Q)
    (offers : List (Option D))
    (own : HandleTable D)
    (result : A × σ)
    (after : HandleTable D) : Prop where
  answers :
    (result.1, object.view result.2 after) =
      object.perform request offers (object.view state own)
  remains :
    ∀ number,
      after number ≠ none ↔
        cls.held result.2 = some number ∨
          (cls.opens request = true ∧ cls.held state = some number)
  renewed :
    ∀ number,
      cls.opens request = true →
        cls.held state = some number →
          cls.held result.2 ≠ some number

/-- The methods of a class are right on a table of their own. -/
structure Disciplined
    (cls : HandleClass D σ Q A)
    (object : AloneObject D σ Q A τ) : Prop where
  viewed :
    ∀ (state : σ) (table other : HandleTable D),
      (∀ number, cls.held state = some number →
        table number = other number) →
        object.view state table = object.view state other
  performed :
    ∀ (state : σ) (request : Q) (offers : List (Option D))
      (own : Option (Nat × D)),
      cls.held state = own.map Prod.fst →
        HandleProgram.wp
          (cls.Performed object state request offers (.owned own))
          (cls.method state request) offers (.owned own)

/-- What a method does that keeps to one handle. -/
def Keeps
    (cls : HandleClass D σ Q A)
    (object : AloneObject D σ Q A τ)
    (state : σ)
    (request : Q)
    (offers : List (Option D))
    (own : Option (Nat × D))
    (result : A × σ)
    (after : HandleTable D) : Prop :=
  ∃ left : Option (Nat × D),
    after = .owned left ∧
      cls.held result.2 = left.map Prod.fst ∧
        (result.1, object.view result.2 (.owned left)) =
          object.perform request offers (object.view state (.owned own))

/--
A class is disciplined if its methods keep to the handle that is held, and those
that open do so without looking at it.
-/
theorem disciplined_of_keeps
    {cls : HandleClass D σ Q A}
    {object : AloneObject D σ Q A τ}
    (viewed :
      ∀ (state : σ) (table other : HandleTable D),
        (∀ number, cls.held state = some number →
          table number = other number) →
          object.view state table = object.view state other)
    (uses :
      ∀ (state : σ) (request : Q) (offers : List (Option D))
        (own : Option (Nat × D)),
        cls.opens request = false →
          cls.held state = own.map Prod.fst →
            HandleProgram.wp (cls.Keeps object state request offers own)
              (cls.method state request) offers (.owned own))
    (renews :
      ∀ (state : σ) (request : Q) (offers : List (Option D))
        (own : Option (Nat × D)),
        cls.opens request = true →
          HandleProgram.wp (cls.Keeps object state request offers own)
            (cls.method state request) offers (.owned none)) :
    cls.Disciplined object where
  viewed := viewed
  performed state request offers own held := by
    cases opens : cls.opens request with
    | false =>
        refine HandleProgram.wp_mono ?_ (uses state request offers own opens
          held)
        rintro result after ⟨left, rfl, heldAfter, answers⟩
        refine ⟨answers, fun number => ?_, fun number renewing => ?_⟩
        · rw [HandleTable.owned_ne_none_iff, heldAfter]
          simp [opens]
        · rw [opens] at renewing
          cases renewing
    | true =>
        have apart :
            (HandleTable.owned none).Apart (HandleTable.owned own) :=
          fun _ => .inl rfl
        have beside :=
          HandleProgram.wp_frame (renews state request offers own opens)
            apart
        have alone :
            (HandleTable.owned none).beside (HandleTable.owned own) =
              HandleTable.owned own :=
          funext fun _ => Option.none_or
        rw [alone] at beside
        refine HandleProgram.wp_mono ?_ beside
        rintro result after ⟨_, ⟨left, rfl, heldAfter, answers⟩, apart, rfl⟩
        have remaining (number : Nat) :
            (HandleTable.owned left).beside (.owned own) number ≠ none ↔
              cls.held result.2 = some number ∨
                cls.held state = some number := by
          rw [heldAfter, held, ← HandleTable.owned_ne_none_iff,
            ← HandleTable.owned_ne_none_iff, ne_eq,
            HandleTable.beside_eq_none_iff, not_and_or]
        refine ⟨?_, fun number => ?_, fun number _ before now => ?_⟩
        · rw [← answers]
          refine congrArg (Prod.mk result.1) ?_
          refine viewed _ _ _ fun number now => ?_
          rw [heldAfter, ← HandleTable.owned_ne_none_iff] at now
          obtain ⟨item, isOpen⟩ := Option.ne_none_iff_exists'.mp now
          rw [isOpen, HandleTable.beside_of_some _ isOpen]
        · rw [remaining]
          simp [opens]
        · rw [heldAfter, ← HandleTable.owned_ne_none_iff] at now
          rw [held, ← HandleTable.owned_ne_none_iff] at before
          exact before ((apart number).resolve_left now)

end HandleClass

/-- Objects and other code that share a table. -/
structure SharedTable (ι D σ : Type) where
  table : HandleTable D
  foreign : Nat → Prop
  objects : ι → σ

/-- What happens at a shared table. -/
inductive SharedEvent (ι D Q A : Type) where
  | call (index : ι) (request : Q) (offers : List (Option D)) (reply : A)
  | other

/-- A call with the handles that it was given and its reply. -/
structure HandleCall (D Q A : Type) where
  request : Q
  offers : List (Option D)
  reply : A

namespace SharedTable

variable {ι D σ Q A τ : Type}
variable [DecidableEq ι]

/-- A number that is open and not other code's. -/
def Ours
    (world : SharedTable ι D σ)
    (number : Nat) : Prop :=
  world.table number ≠ none ∧ ¬ world.foreign number

/-- A number that is open, and that neither an object holds nor other code. -/
def Stray
    (cls : HandleClass D σ Q A)
    (world : SharedTable ι D σ)
    (number : Nat) : Prop :=
  world.Ours number ∧
    ∀ index, cls.held (world.objects index) ≠ some number

/-- The table and its objects behind a call of one of them. -/
def called
    (world : SharedTable ι D σ)
    (index : ι)
    (state : σ)
    (after : HandleTable D) : SharedTable ι D σ :=
  { world with
    table := after
    objects := Function.update world.objects index state }

/-- The object that was called has its new state. -/
theorem called_self
    (world : SharedTable ι D σ)
    (index : ι)
    (state : σ)
    (after : HandleTable D) :
    (world.called index state after).objects index = state := by
  simp [called]

/-- The other objects keep their states. -/
theorem called_of_ne
    (world : SharedTable ι D σ)
    {index other : ι}
    (differ : other ≠ index)
    (state : σ)
    (after : HandleTable D) :
    (world.called index state after).objects other = world.objects other := by
  simp [called, differ]

/--
An object is called, or other code opens, uses and closes handles of its own.
-/
inductive Step
    (cls : HandleClass D σ Q A)
    (world : SharedTable ι D σ) :
    SharedEvent ι D Q A → SharedTable ι D σ → Prop where
  | call
      {index : ι}
      {request : Q}
      {offers : List (Option D)}
      {reply : A}
      {state : σ}
      {after : HandleTable D}
      (runs :
        HandleProgram.Runs (cls.method (world.objects index) request)
          offers world.table (reply, state) after) :
      Step cls world (.call index request offers reply)
        (world.called index state after)
  | other
      {table : HandleTable D}
      {foreign : Nat → Prop}
      (spared :
        ∀ number, world.Ours number →
          table number = world.table number ∧ ¬ foreign number)
      (its :
        ∀ number, ¬ world.Ours number →
          (table number ≠ none ↔ foreign number)) :
      Step cls world .other
        { world with table := table, foreign := foreign }

/-- Events one after the other. -/
inductive Run
    (cls : HandleClass D σ Q A)
    (start : SharedTable ι D σ) :
    List (SharedEvent ι D Q A) → SharedTable ι D σ → Prop where
  | start : Run cls start [] start
  | step
      {events : List (SharedEvent ι D Q A)}
      {event : SharedEvent ι D Q A}
      {world after : SharedTable ι D σ}
      (run : Run cls start events world)
      (step : Step cls world event after) :
      Run cls start (events ++ [event]) after

/-- A run goes on with a call. -/
theorem Run.call
    {cls : HandleClass D σ Q A}
    {start world : SharedTable ι D σ}
    {events : List (SharedEvent ι D Q A)}
    (run : Run cls start events world)
    (index : ι)
    (request : Q)
    (offers : List (Option D))
    (reply : A)
    {state : σ}
    {after : HandleTable D}
    (runs :
      HandleProgram.Runs (cls.method (world.objects index) request) offers
        world.table (reply, state) after) :
    Run cls start (events ++ [.call index request offers reply])
      (world.called index state after) :=
  run.step (.call runs)

/-- The calls of one object. -/
def callsOf
    (index : ι)
    (events : List (SharedEvent ι D Q A)) : List (HandleCall D Q A) :=
  events.filterMap fun event =>
    match event with
    | .call caller request offers reply =>
        if caller = index then some ⟨request, offers, reply⟩ else none
    | .other => none

end SharedTable

namespace AloneObject

variable {D σ Q A τ : Type}

/-- What an object that is alone becomes by calls. -/
def after
    (object : AloneObject D σ Q A τ)
    (state : τ)
    (calls : List (HandleCall D Q A)) : τ :=
  calls.foldl
    (fun state call => (object.perform call.request call.offers state).2)
    state

/-- The replies are those of an object that is alone. -/
def Answers
    (object : AloneObject D σ Q A τ) :
    τ → List (HandleCall D Q A) → Prop
  | _, [] => True
  | state, call :: rest =>
      (object.perform call.request call.offers state).1 = call.reply ∧
        object.Answers (object.perform call.request call.offers state).2 rest

/-- One more call is answered if its reply is the one due. -/
theorem answers_append
    (object : AloneObject D σ Q A τ)
    (state : τ)
    (calls : List (HandleCall D Q A))
    (call : HandleCall D Q A) :
    object.Answers state (calls ++ [call]) ↔
      object.Answers state calls ∧
        (object.perform call.request call.offers
          (object.after state calls)).1 = call.reply := by
  induction calls generalizing state with
  | nil =>
      simp [Answers, after]
  | cons first rest inductionHypothesis =>
      rw [List.cons_append, Answers, Answers, inductionHypothesis,
        and_assoc]
      rfl

/-- One more call takes one more step. -/
theorem after_append
    (object : AloneObject D σ Q A τ)
    (state : τ)
    (calls : List (HandleCall D Q A))
    (call : HandleCall D Q A) :
    object.after state (calls ++ [call]) =
      (object.perform call.request call.offers
        (object.after state calls)).2 := by
  rw [after, List.foldl_append]
  rfl

end AloneObject

namespace SharedTable

variable {ι D σ Q A τ : Type}
variable {cls : HandleClass D σ Q A}
variable {object : AloneObject D σ Q A τ}

/-- Numbers that are held are open, of one object each, and its own. -/
structure Separate
    (cls : HandleClass D σ Q A)
    (world : SharedTable ι D σ) : Prop where
  heldOurs :
    ∀ index number,
      cls.held (world.objects index) = some number → world.Ours number
  distinct :
    ∀ index other number,
      cls.held (world.objects index) = some number →
        cls.held (world.objects other) = some number → index = other
  foreignOpen : ∀ number, world.foreign number → world.table number ≠ none

/-- The handle that an object holds. -/
def ownOf
    (cls : HandleClass D σ Q A)
    (world : SharedTable ι D σ)
    (index : ι) : Option (Nat × D) :=
  (cls.held (world.objects index)).bind fun number =>
    (world.table number).map fun item => (number, item)

/-- The table without the handle that an object holds. -/
def othersOf
    (cls : HandleClass D σ Q A)
    (world : SharedTable ι D σ)
    (index : ι) : HandleTable D :=
  fun number =>
    if cls.held (world.objects index) = some number then none
    else world.table number

/-- An object that holds a handle has it in the table. -/
theorem Separate.held_eq
    {world : SharedTable ι D σ}
    (separate : Separate cls world)
    (index : ι) :
    cls.held (world.objects index) =
      (world.ownOf cls index).map Prod.fst := by
  cases held : cls.held (world.objects index) with
  | none =>
      simp [ownOf, held]
  | some number =>
      obtain ⟨item, isOpen⟩ :=
        Option.ne_none_iff_exists'.mp (separate.heldOurs index number held).1
      simp [ownOf, held, isOpen]

/-- The table of what an object holds. -/
theorem owned_ownOf
    (world : SharedTable ι D σ)
    (index : ι)
    (number : Nat) :
    HandleTable.owned (world.ownOf cls index) number =
      if cls.held (world.objects index) = some number then
        world.table number
      else
        none := by
  cases held : cls.held (world.objects index) with
  | none =>
      simp [ownOf, held, HandleTable.owned, HandleTable.empty]
  | some own =>
      cases isOpen : world.table own with
      | none =>
          by_cases same : own = number
          · subst same
            simp [ownOf, held, isOpen, HandleTable.owned, HandleTable.empty]
          · simp [ownOf, held, isOpen, HandleTable.owned, HandleTable.empty,
              same]
      | some item =>
          by_cases same : own = number
          · subst same
            simp [ownOf, held, isOpen, HandleTable.owned]
          · have others : number ≠ own := fun isSame => same isSame.symm
            simp [ownOf, held, isOpen, HandleTable.owned, same,
              Function.update_of_ne others, HandleTable.empty]

/-- A table is what an object holds beside the rest. -/
theorem table_eq_beside
    (world : SharedTable ι D σ)
    (index : ι) :
    world.table =
      (HandleTable.owned (world.ownOf cls index)).beside
        (world.othersOf cls index) := by
  funext number
  rw [HandleTable.beside, owned_ownOf, othersOf]
  by_cases held : cls.held (world.objects index) = some number
  · simp [held]
  · simp [held]

/-- What an object holds is not in the rest. -/
theorem apart_othersOf
    (world : SharedTable ι D σ)
    (index : ι) :
    (HandleTable.owned (world.ownOf cls index)).Apart
      (world.othersOf cls index) := by
  intro number
  rw [owned_ownOf, othersOf]
  by_cases held : cls.held (world.objects index) = some number
  · exact .inr (if_pos held)
  · exact .inl (if_neg held)

/-- All that a call can do to a table and to the object that is called. -/
structure Effect
    (cls : HandleClass D σ Q A)
    (object : AloneObject D σ Q A τ)
    (world : SharedTable ι D σ)
    (index : ι)
    (request : Q)
    (offers : List (Option D))
    (reply : A)
    (state : σ)
    (after : HandleTable D) : Prop where
  answers :
    (reply, object.view state after) =
      object.perform request offers
        (object.view (world.objects index) world.table)
  untouched :
    ∀ number,
      cls.held (world.objects index) ≠ some number →
        cls.held state ≠ some number → after number = world.table number
  acquired :
    ∀ number,
      cls.held state = some number →
        after number ≠ none ∧
          (cls.held (world.objects index) = some number ∨
            world.table number = none)
  held :
    ∀ number,
      cls.held (world.objects index) = some number →
        (after number ≠ none ↔
          cls.held state = some number ∨ cls.opens request = true)
  renewed :
    ∀ number,
      cls.opens request = true →
        cls.held (world.objects index) = some number →
          cls.held state ≠ some number

/-- A method is right on its own handle beside the others. -/
theorem Separate.performed
    (disciplined : cls.Disciplined object)
    {world : SharedTable ι D σ}
    (separate : Separate cls world)
    (index : ι)
    (request : Q)
    (offers : List (Option D)) :
    HandleProgram.wp
      (fun result after =>
        ∃ left : HandleTable D,
          cls.Performed object (world.objects index) request offers
              (.owned (world.ownOf cls index)) result left ∧
            left.Apart (world.othersOf cls index) ∧
              after = left.beside (world.othersOf cls index))
      (cls.method (world.objects index) request) offers world.table := by
  have alone :=
    disciplined.performed (world.objects index) request offers
      (world.ownOf cls index) (separate.held_eq index)
  have beside :=
    HandleProgram.wp_frame alone (world.apart_othersOf index)
  rw [← world.table_eq_beside index] at beside
  exact beside

/-- A disciplined object does not fault, whatever else is in the table. -/
theorem Separate.faultless
    (disciplined : cls.Disciplined object)
    {world : SharedTable ι D σ}
    (separate : Separate cls world)
    (index : ι)
    (request : Q)
    (offers : List (Option D)) :
    ¬ HandleProgram.Faults (cls.method (world.objects index) request) offers
      world.table := by
  exact HandleProgram.wp_faultless
    (separate.performed disciplined index request offers)

/-- What a disciplined object does beside others. -/
theorem Separate.effect
    (disciplined : cls.Disciplined object)
    {world : SharedTable ι D σ}
    (separate : Separate cls world)
    {index : ι}
    {request : Q}
    {offers : List (Option D)}
    {reply : A}
    {state : σ}
    {after : HandleTable D}
    (runs :
      HandleProgram.Runs (cls.method (world.objects index) request) offers
        world.table (reply, state) after) :
    Effect cls object world index request offers reply state after := by
  obtain ⟨left, performed, apart, isBeside⟩ :=
    HandleProgram.wp_run
      (separate.performed disciplined index request offers) runs
  have afterAt (number : Nat) :
      after number =
        (left number).or (world.othersOf cls index number) := by
    rw [isBeside, HandleTable.beside]
  have left_of_held {number : Nat} (held : cls.held state = some number) :
      left number ≠ none :=
    (performed.remains number).mpr (.inl held)
  refine ⟨?_, ?_, ?_, ?_, performed.renewed⟩
  · have viewAfter : object.view state after = object.view state left := by
      refine disciplined.viewed state after left fun number held => ?_
      obtain ⟨item, isOpen⟩ :=
        Option.ne_none_iff_exists'.mp (left_of_held held)
      rw [afterAt, isOpen, Option.some_or]
    have viewBefore :
        object.view (world.objects index) world.table =
          object.view (world.objects index)
            (.owned (world.ownOf cls index)) := by
      refine disciplined.viewed _ _ _ fun number held => ?_
      rw [owned_ownOf, if_pos held]
    rw [viewAfter, viewBefore]
    exact performed.answers
  · intro number notBefore notAfter
    have closed : left number = none := by
      by_contra isOpen
      rcases (performed.remains number).mp isOpen with held | ⟨-, held⟩
      · exact notAfter held
      · exact notBefore held
    rw [afterAt, closed, Option.none_or, othersOf, if_neg notBefore]
  · intro number held
    have isOpen := left_of_held held
    refine ⟨?_, ?_⟩
    · rw [afterAt]
      intro closed
      exact isOpen (Option.or_eq_none_iff.mp closed).1
    · have free := (apart number).resolve_left isOpen
      rw [othersOf] at free
      by_cases before : cls.held (world.objects index) = some number
      · exact .inl before
      · rw [if_neg before] at free
        exact .inr free
  · intro number held
    rw [afterAt, othersOf, if_pos held, Option.or_none,
      performed.remains number]
    simp [held]

/-- A call spares what is open and not the object's. -/
theorem Effect.spares
    {world : SharedTable ι D σ}
    {index : ι}
    {request : Q}
    {offers : List (Option D)}
    {reply : A}
    {state : σ}
    {after : HandleTable D}
    (effect :
      Effect cls object world index request offers reply state after)
    {number : Nat}
    (isOpen : world.table number ≠ none)
    (notOwn : cls.held (world.objects index) ≠ some number) :
    cls.held state ≠ some number ∧ after number = world.table number := by
  have notTaken : cls.held state ≠ some number := by
    intro held
    rcases (effect.acquired number held).2 with before | free
    · exact notOwn before
    · exact isOpen free
  exact ⟨notTaken, effect.untouched number notOwn notTaken⟩

/-- What other objects hold is not the object's. -/
theorem Separate.notOwn
    {world : SharedTable ι D σ}
    (separate : Separate cls world)
    {index other : ι}
    (differ : other ≠ index)
    {number : Nat}
    (held : cls.held (world.objects other) = some number) :
    cls.held (world.objects index) ≠ some number := by
  intro own
  exact differ (separate.distinct other index number held own)

variable [DecidableEq ι]

/-- The numbers held behind a call are those of the object and of the others. -/
theorem held_called
    {world : SharedTable ι D σ}
    {index other : ι}
    {state : σ}
    {after : HandleTable D}
    {number : Nat}
    (held :
      cls.held ((world.called index state after).objects other) =
        some number) :
    (other = index ∧ cls.held state = some number) ∨
      (other ≠ index ∧ cls.held (world.objects other) = some number) := by
  by_cases same : other = index
  · subst same
    rw [called_self] at held
    exact .inl ⟨rfl, held⟩
  · rw [called_of_ne world same] at held
    exact .inr ⟨same, held⟩

/-- A call of a disciplined object keeps a table separate. -/
theorem Separate.call
    {world : SharedTable ι D σ}
    (separate : Separate cls world)
    {index : ι}
    {request : Q}
    {offers : List (Option D)}
    {reply : A}
    {state : σ}
    {after : HandleTable D}
    (effect :
      Effect cls object world index request offers reply state after) :
    Separate cls (world.called index state after) where
  heldOurs other number held := by
    rcases held_called held with ⟨-, own⟩ | ⟨differ, others⟩
    · obtain ⟨isOpen, origin⟩ := effect.acquired number own
      refine ⟨isOpen, fun isForeign => ?_⟩
      rcases origin with before | free
      · exact (separate.heldOurs index number before).2 isForeign
      · exact separate.foreignOpen number isForeign free
    · obtain ⟨isOpen, notForeign⟩ := separate.heldOurs other number others
      have spared := effect.spares isOpen (separate.notOwn differ others)
      exact ⟨spared.2.trans_ne isOpen, notForeign⟩
  distinct first second number heldFirst heldSecond := by
    rcases held_called heldFirst with ⟨rfl, own⟩ | ⟨differ, others⟩
    · rcases held_called heldSecond with ⟨rfl, -⟩ | ⟨differ, others⟩
      · rfl
      · have isOpen := (separate.heldOurs second number others).1
        exact absurd own
          (effect.spares isOpen (separate.notOwn differ others)).1
    · rcases held_called heldSecond with ⟨rfl, own⟩ | ⟨-, others'⟩
      · have isOpen := (separate.heldOurs first number others).1
        exact absurd own
          (effect.spares isOpen (separate.notOwn differ others)).1
      · exact separate.distinct first second number others others'
  foreignOpen number isForeign := by
    have isOpen := separate.foreignOpen number isForeign
    have notOwn :
        cls.held (world.objects index) ≠ some number := fun held =>
      (separate.heldOurs index number held).2 isForeign
    exact (effect.spares isOpen notOwn).2.trans_ne isOpen

/-- Whatever happens at a separate table, it stays separate. -/
theorem Separate.step
    (disciplined : cls.Disciplined object)
    {world after : SharedTable ι D σ}
    (separate : Separate cls world)
    {event : SharedEvent ι D Q A}
    (step : Step cls world event after) :
    Separate cls after := by
  cases step with
  | call runs =>
      exact separate.call (separate.effect disciplined runs)
  | other spared its =>
      refine ⟨?_, separate.distinct, ?_⟩
      · intro index number held
        have ours := separate.heldOurs index number held
        obtain ⟨same, notForeign⟩ := spared number ours
        exact ⟨same.trans_ne ours.1, notForeign⟩
      · intro number isForeign
        by_cases ours : world.Ours number
        · exact absurd isForeign (spared number ours).2
        · exact (its number ours).mpr isForeign

/-- A separate table is separate in every state of every run. -/
theorem Separate.run
    (disciplined : cls.Disciplined object)
    {start world : SharedTable ι D σ}
    (separate : Separate cls start)
    {events : List (SharedEvent ι D Q A)}
    (run : Run cls start events world) :
    Separate cls world := by
  induction run with
  | start =>
      exact separate
  | step _ step inductionHypothesis =>
      exact inductionHypothesis.step disciplined step

/-- The calls of an object behind one more event. -/
theorem callsOf_append
    (index : ι)
    (events further : List (SharedEvent ι D Q A)) :
    callsOf index (events ++ further) =
      callsOf index events ++ callsOf index further :=
  List.filterMap_append

/-- What other code does is no call. -/
theorem callsOf_other
    (index : ι) :
    callsOf index [(SharedEvent.other : SharedEvent ι D Q A)] = [] :=
  rfl

/-- A call is one of the object that is called. -/
theorem callsOf_own
    (index : ι)
    (request : Q)
    (offers : List (Option D))
    (reply : A) :
    callsOf index [SharedEvent.call index request offers reply] =
      [⟨request, offers, reply⟩] := by
  simp [callsOf]

/-- A call is none of another object. -/
theorem callsOf_of_ne
    {caller index : ι}
    (differ : caller ≠ index)
    (request : Q)
    (offers : List (Option D))
    (reply : A) :
    callsOf index [SharedEvent.call caller request offers reply] = [] := by
  simp [callsOf, differ]

/--
Beside others every object answers as it does alone, and is in the state that
it would be in alone.
-/
theorem answers_alone
    (disciplined : cls.Disciplined object)
    {start world : SharedTable ι D σ}
    (separate : Separate cls start)
    {events : List (SharedEvent ι D Q A)}
    (run : Run cls start events world)
    (index : ι) :
    object.Answers (object.view (start.objects index) start.table)
        (callsOf index events) ∧
      object.view (world.objects index) world.table =
        object.after (object.view (start.objects index) start.table)
          (callsOf index events) := by
  induction run with
  | start =>
      exact ⟨trivial, rfl⟩
  | @step events event world after run step inductionHypothesis =>
      obtain ⟨answers, same⟩ := inductionHypothesis
      have nowSeparate := separate.run disciplined run
      rw [callsOf_append]
      cases step with
      | @call caller request offers reply state table runs =>
          have effect := nowSeparate.effect disciplined runs
          by_cases isCaller : caller = index
          · subst isCaller
            have answered := effect.answers
            rw [same] at answered
            rw [callsOf_own, object.answers_append, object.after_append,
              called_self, ← answered]
            exact ⟨⟨answers, rfl⟩, rfl⟩
          · have differ : index ≠ caller := fun isIndex =>
              isCaller isIndex.symm
            rw [callsOf_of_ne isCaller, List.append_nil,
              called_of_ne world differ, ← same]
            refine ⟨answers, ?_⟩
            refine disciplined.viewed _ _ _ fun number held => ?_
            exact (effect.spares (nowSeparate.heldOurs index number held).1
              (nowSeparate.notOwn differ held)).2
      | other spared its =>
          rw [callsOf_other, List.append_nil]
          refine ⟨answers, ?_⟩
          rw [← same]
          refine disciplined.viewed _ _ _ fun number held => ?_
          exact (spared number (nowSeparate.heldOurs index number held)).1

/-- What is stray stays open for ever. -/
theorem Stray.step
    (disciplined : cls.Disciplined object)
    {world after : SharedTable ι D σ}
    (separate : Separate cls world)
    {number : Nat}
    (stray : Stray cls world number)
    {event : SharedEvent ι D Q A}
    (step : Step cls world event after) :
    Stray cls after number := by
  obtain ⟨ours, unheld⟩ := stray
  cases step with
  | @call index request offers reply state table runs =>
      have effect := separate.effect disciplined runs
      have spared := effect.spares ours.1 (unheld index)
      refine ⟨⟨spared.2.trans_ne ours.1, ours.2⟩, fun other held => ?_⟩
      rcases held_called held with ⟨-, own⟩ | ⟨-, others⟩
      · exact spared.1 own
      · exact unheld other others
  | other spared its =>
      obtain ⟨same, notForeign⟩ := spared number ours
      exact ⟨⟨same.trans_ne ours.1, notForeign⟩, unheld⟩

/-- Opening an object that holds a handle leaves that handle behind. -/
theorem stray_of_reopened
    (disciplined : cls.Disciplined object)
    {world after : SharedTable ι D σ}
    (separate : Separate cls world)
    {index : ι}
    {request : Q}
    {offers : List (Option D)}
    {reply : A}
    (step : Step cls world (.call index request offers reply) after)
    (opens : cls.opens request = true)
    {number : Nat}
    (held : cls.held (world.objects index) = some number) :
    Stray cls after number := by
  cases step with
  | @call _ _ _ _ state table runs =>
      have effect := separate.effect disciplined runs
      have ours := separate.heldOurs index number held
      refine ⟨⟨(effect.held number held).mpr (.inr opens), ours.2⟩,
        fun other heldAfter => ?_⟩
      rcases held_called heldAfter with ⟨-, own⟩ | ⟨differ, others⟩
      · exact effect.renewed number opens held own
      · exact separate.notOwn differ others held

/-- Nothing else leaves a handle behind. -/
theorem Stray.origin
    (disciplined : cls.Disciplined object)
    {world after : SharedTable ι D σ}
    (separate : Separate cls world)
    {event : SharedEvent ι D Q A}
    (step : Step cls world event after)
    {number : Nat}
    (stray : Stray cls after number) :
    Stray cls world number ∨
      ∃ index request offers reply,
        event = .call index request offers reply ∧
          cls.opens request = true ∧
            cls.held (world.objects index) = some number := by
  obtain ⟨⟨isOpen, notForeign⟩, unheld⟩ := stray
  cases step with
  | @call index request offers reply state table runs =>
      have effect := separate.effect disciplined runs
      have notTaken : cls.held state ≠ some number := by
        have unheldOwn := unheld index
        rwa [called_self] at unheldOwn
      by_cases held : cls.held (world.objects index) = some number
      · rcases (effect.held number held).mp isOpen with taken | opens
        · exact absurd taken notTaken
        · exact .inr ⟨_, _, _, _, rfl, opens, held⟩
      · have same := effect.untouched number held notTaken
        refine .inl ⟨⟨same.symm.trans_ne isOpen, notForeign⟩,
          fun other heldBefore => ?_⟩
        by_cases isIndex : other = index
        · subst isIndex
          exact held heldBefore
        · have unheldOther := unheld other
          rw [called_of_ne world isIndex] at unheldOther
          exact unheldOther heldBefore
  | other spared its =>
      by_cases ours : world.Ours number
      · exact .inl ⟨ours, unheld⟩
      · exact absurd ((its number ours).mp isOpen) notForeign

end SharedTable

end TsnGen
