import Mathlib.Logic.Relation
import TsnGen.ModuleMemory

namespace TsnGen

open PacketBuilder

/-!
# Two stacks on a link

A sender and a receiver hold stacks that look the same, as two programs with
one stack file do.  The link delivers frames that were sent, each any number of
times, in any order or never; both sides may use their stacks in the other
direction too.  Whatever happens, the receiver's modules remember what the
sender packed into its layouts, as the widths of the fields carried it.
-/

/-- Two stacks, the frames sent so far and those received, in order. -/
structure Link where
  sender : Stack
  sent : List (List UInt8)
  receiver : Stack
  received : List (List UInt8)
  answers : Nat

namespace Link

/-- Two stacks before they are used. -/
def idle
    (sender receiver : Stack) : Link where
  sender := sender
  sent := []
  receiver := receiver
  received := []
  answers := 0

/-- What can happen on a link. -/
inductive Step
    (session : Session)
    (rng : Rng G)
    (link : Link) : Link → Prop where
  | send
      (engine : G) :
      Step session rng link
        { link with
          sender := (link.sender.generateStack session rng engine).stack
          sent :=
            link.sent ++
              [(link.sender.generateStack session rng engine).packet.bytes] }
  | listen
      (bytes : List UInt8) :
      Step session rng link
        { link with
          sender := (link.sender.decodeStack session bytes).stack }
  | deliver
      {frame : List UInt8}
      (isSent : frame ∈ link.sent) :
      Step session rng link
        { link with
          receiver := (link.receiver.decodeStack session frame).stack
          received := link.received ++ [frame] }
  | answer
      (engine : G) :
      Step session rng link
        { link with
          receiver := (link.receiver.generateStack session rng engine).stack
          answers := link.answers + 1 }

end Link

namespace LayerView

/-- What a frame of rows shows to the module of each layer. -/
def shownRows
    (views : List LayerView)
    (rows : List (String × List Field)) : List (Option (List Field)) :=
  List.zipWith (fun view row => view.iface.map fun _ => onWire row.2) views
    rows

/-- A packed frame shows its rows as the wire carries them. -/
theorem shown_packRows
    {varDb : Database Var}
    (narrow : NarrowWidths varDb)
    {views : List LayerView}
    (agree :
      ∀ view ∈ views, ∀ iface ∈ view.iface,
        WidthsAgree varDb iface.varRefs)
    {rows : List (String × List Field)}
    (fits : List.Forall₂ (LayerView.Fits varDb) views rows)
    (front : List UInt8) :
    shown varDb (front ++ (packRows rows).bytes) views front.length =
      shownRows views rows := by
  induction fits generalizing front with
  | nil =>
      rfl
  | @cons view row views rows fit later inductionHypothesis =>
      obtain ⟨-, shape⟩ := fit
      have others :=
        inductionHypothesis fun other member =>
          agree other (List.mem_cons_of_mem _ member)
      cases resolved : view.iface with
      | none =>
          simp only [resolved] at shape
          have nothingPacked : packFields [] = [] :=
            rfl
          have rest := others front
          simp only [packRows] at rest
          simp [shown, shownRows, resolved, packRows, shape, nothingPacked,
            rest]
      | some iface =>
          simp only [resolved] at shape
          have decoded :=
            decode_packed narrow shape front (packRows rows).bytes
          have length :
              front.length + PacketDecoder.layerBytes iface varDb =
                (front ++ packFields row.2).length := by
            simp [length_packFields narrow shape]
          have loaded :
              Session.populated varDb iface.varRefs (carried row.2) =
                onWire row.2 := by
            rw [← reported_onWire]
            exact (agree view List.mem_cons_self iface
              resolved).populated_reported
                ((shapeOf_onWire row.2).trans shape)
          have rest := others (front ++ packFields row.2)
          rw [← length] at rest
          simp only [packRows, List.append_assoc] at decoded rest
          simp only [shown, shownRows, resolved, packRows,
            List.flatMap_cons, decoded, loaded, rest, List.zipWith_cons_cons,
            Option.map_some]

end LayerView

/-- A frame packs rows that fit the layouts and obey the rules on the wire. -/
structure Genuine
    (session : Session)
    (views : List LayerView)
    (frame : List UInt8)
    (rows : List (String × List Field)) : Prop where
  packed : (packRows rows).bytes = frame
  fits : List.Forall₂ (LayerView.Fits session.varDb) views rows
  conforms : Conforms session.varDb views (wireRows rows)

/-- A stack generates genuine frames. -/
theorem genuine_generateStack
    {session : Session}
    {stack : Stack}
    (clean : stack.Clean session)
    (named : stack.Named)
    (distinct : stack.DistinctNames session)
    (narrow : NarrowWidths session.varDb)
    (rng : Rng G)
    (engine : G) :
    Genuine session (stack.views session)
      (stack.generateStack session rng engine).packet.bytes
      (stack.generateStack session rng engine).stack.rows where
  packed := rfl
  fits := by
    rw [Stack.rows_generateStack]
    exact Stack.fits_generateStack clean distinct rng engine
  conforms :=
    Stack.conforms_generateStack clean named distinct narrow rng engine

namespace Link

/-- What holds of a link whose stacks look the same. -/
structure Sound
    (session : Session)
    (views : List LayerView)
    (link : Link) : Prop where
  senderViews : link.sender.views session = views
  receiverViews : link.receiver.views session = views
  genuine : ∀ frame ∈ link.sent, ∃ rows, Genuine session views frame rows
  delivered : ∀ frame ∈ link.received, frame ∈ link.sent
  remembers :
    link.receiver.Remembers session link.answers link.received

/-- Layers that a stack can be built with: clean, named and distinct. -/
structure Regular
    (session : Session)
    (stack : Stack) : Prop where
  clean : stack.Clean session
  named : stack.Named
  distinct : stack.DistinctNames session

/-- Stacks that look the same are regular alike. -/
theorem Regular.of_views
    {session : Session}
    {stack other : Stack}
    (regular : Regular session stack)
    (same : other.views session = stack.views session) :
    Regular session other where
  clean := by
    intro view member
    rw [same] at member
    exact regular.clean view member
  named := regular.named.of_views same
  distinct := by
    rw [Stack.distinctNames_iff_views, same,
      ← Stack.distinctNames_iff_views]
    exact regular.distinct

/-- Whatever happens on a sound link, it stays sound. -/
theorem Sound.step
    {session : Session}
    {built : Stack}
    (regular : Regular session built)
    (narrow : NarrowWidths session.varDb)
    {rng : Rng G}
    {before after : Link}
    (sound : Sound session (built.views session) before)
    (step : Step session rng before after) :
    Sound session (built.views session) after := by
  obtain ⟨senderViews, receiverViews, genuine, delivered, remembers⟩ := sound
  have sender := regular.of_views senderViews
  have receiver := regular.of_views receiverViews
  cases step with
  | send engine =>
      have made :=
        genuine_generateStack sender.clean sender.named sender.distinct
          narrow rng engine
      rw [senderViews] at made
      refine ⟨?_, receiverViews, ?_, ?_, remembers⟩
      · exact (sender.clean.views_generateStack rng engine).trans senderViews
      · intro frame member
        rcases List.mem_append.mp member with earlier | isNew
        · exact genuine frame earlier
        · rw [List.mem_singleton.mp isNew]
          exact ⟨_, made⟩
      · intro frame member
        exact List.mem_append_left _ (delivered frame member)
  | listen bytes =>
      refine ⟨?_, receiverViews, genuine, delivered, remembers⟩
      exact (before.sender.views_decodeStack session bytes).trans senderViews
  | @deliver frame isSent =>
      refine ⟨senderViews, ?_, genuine, ?_, remembers.decodeStack frame⟩
      · exact (before.receiver.views_decodeStack session frame).trans
          receiverViews
      · intro other member
        rcases List.mem_append.mp member with earlier | isNew
        · exact delivered other earlier
        · rw [List.mem_singleton.mp isNew]
          exact isSent
  | answer engine =>
      refine ⟨senderViews, ?_, genuine, delivered,
        remembers.generateStack receiver.clean rng engine⟩
      exact (receiver.clean.views_generateStack rng engine).trans
        receiverViews

/-- A link is sound in every state of every run. -/
theorem sound_of_run
    {session : Session}
    {sender receiver : Stack}
    (regular : Regular session sender)
    (unused : receiver.Fresh)
    (same : receiver.views session = sender.views session)
    (narrow : NarrowWidths session.varDb)
    {rng : Rng G}
    {link : Link}
    (run :
      Relation.ReflTransGen (Step session rng) (idle sender receiver)
        link) :
    Sound session (sender.views session) link := by
  induction run with
  | refl =>
      exact ⟨rfl, same, fun _ member => (List.not_mem_nil member).elim,
        fun _ member => (List.not_mem_nil member).elim,
        unused.remembers session⟩
  | tail _ step inductionHypothesis =>
      exact inductionHypothesis.step regular narrow step

/--
The receiver remembers what the sender packed.  Between two fresh stacks that
look the same, in every state of every run, the frames received so far were sent
and pack rows that fit the layouts and obey the rules of their layers, and the
receiver's modules hold the latest values of exactly these rows, as their widths
carried them, with its own encodings counted.
-/
theorem receiver_remembers
    {G : Type}
    {session : Session}
    {sender receiver : Stack}
    (fresh : sender.Fresh)
    (unused : receiver.Fresh)
    (named : sender.Named)
    (distinct : sender.DistinctNames session)
    (same : receiver.views session = sender.views session)
    (narrow : NarrowWidths session.varDb)
    {rng : Rng G}
    {link : Link}
    (run :
      Relation.ReflTransGen (Step session rng) (idle sender receiver)
        link) :
    let views := sender.views session
    ∃ frames : List (List (String × List Field)),
      frames.map (fun rows => (packRows rows).bytes) = link.received ∧
        (∀ rows ∈ frames,
          (packRows rows).bytes ∈ link.sent ∧
            List.Forall₂ (LayerView.Fits session.varDb) views rows ∧
              Conforms session.varDb views (wireRows rows)) ∧
        link.receiver.layers.map StackLayer.logic =
          views.mapIdx fun index view =>
            view.kind.remembering link.answers
              (frames.filterMap fun rows =>
                (LayerView.shownRows views rows)[index]?.join) := by
  intro views
  have regular : Regular session sender :=
    ⟨fresh.clean session, named, distinct⟩
  have agree :
      ∀ view ∈ views, ∀ iface ∈ view.iface,
        WidthsAgree session.varDb iface.varRefs :=
    Stack.DistinctNames.widthsAgree distinct
  have sound := sound_of_run regular unused same narrow run
  choose! rowsOf genuine using sound.genuine
  have received :
      ∀ frame ∈ link.received,
        Genuine session views frame (rowsOf frame) :=
    fun frame member => genuine frame (sound.delivered frame member)
  have shownAt (index : Nat) :
      LayerView.shownAt session.varDb views link.received index =
        (link.received.map rowsOf).filterMap fun rows =>
          (LayerView.shownRows views rows)[index]?.join := by
    rw [LayerView.shownAt, List.filterMap_map]
    refine List.filterMap_congr fun frame member => ?_
    have isGenuine := received frame member
    have shown :=
      LayerView.shown_packRows narrow agree isGenuine.fits []
    rw [List.nil_append, isGenuine.packed, List.length_nil] at shown
    rw [shown, Function.comp_apply]
  refine ⟨link.received.map rowsOf, ?_, ?_, ?_⟩
  · rw [List.map_map]
    refine (List.map_congr_left fun frame member => ?_).trans
      (List.map_id _)
    exact (received frame member).packed
  · intro rows member
    obtain ⟨frame, isReceived, rfl⟩ := List.mem_map.mp member
    refine ⟨?_, (received frame isReceived).fits,
      (received frame isReceived).conforms⟩
    rw [(received frame isReceived).packed]
    exact sound.delivered frame isReceived
  · rw [sound.remembers, sound.receiverViews, LayerView.modules]
    apply List.ext_getElem?
    intro index
    rw [List.getElem?_mapIdx, List.getElem?_mapIdx, shownAt index]

theorem receiver_remembers_command :
    ∃ link : Link,
      Relation.ReflTransGen (Step commandSession (Rng.constant 6))
          (idle freshCommandStack freshCommandStack) link ∧
        link.received.length = 1 ∧
          ∃ frames : List (List (String × List Field)),
            frames.map (fun rows => (packRows rows).bytes) = link.received ∧
              (∀ rows ∈ frames,
                (packRows rows).bytes ∈ link.sent ∧
                  List.Forall₂ (LayerView.Fits commandSession.varDb)
                      (freshCommandStack.views commandSession) rows ∧
                    Conforms commandSession.varDb
                      (freshCommandStack.views commandSession)
                      (wireRows rows)) ∧
              link.receiver.layers.map StackLayer.logic =
                (freshCommandStack.views commandSession).mapIdx
                  fun index view =>
                    view.kind.remembering link.answers
                      (frames.filterMap fun rows =>
                        (LayerView.shownRows
                          (freshCommandStack.views commandSession)
                          rows)[index]?.join) := by
  let sending :=
    freshCommandStack.generateStack commandSession (Rng.constant 6) ()
  let busy : Link :=
    { idle freshCommandStack freshCommandStack with
      sender := sending.stack
      sent := [sending.packet.bytes] }
  have sent :
      Step commandSession (Rng.constant 6)
        (idle freshCommandStack freshCommandStack) busy :=
    Step.send ()
  have delivered :
      Step commandSession (Rng.constant 6) busy
        { busy with
          receiver :=
            (busy.receiver.decodeStack commandSession
              sending.packet.bytes).stack
          received := [sending.packet.bytes] } :=
    Step.deliver (List.mem_singleton_self sending.packet.bytes)
  have run := (Relation.ReflTransGen.single sent).tail delivered
  have named : freshCommandStack.Named := by
    rw [Stack.Named]
    unfold StackLayer.Named
    decide
  exact ⟨_, run, rfl,
    receiver_remembers freshCommandStack_fresh freshCommandStack_fresh named
      (by decide +kernel) rfl (by decide +kernel) run⟩

end Link

end TsnGen
