import Mathlib.Data.List.Induction
import TsnGen.ValueConstraints

namespace TsnGen

open PacketBuilder

/-!
# What a chain echoes

A chain hands the values reported by one stage to the next one.  Reported
values are not truncated to their fields, while the bytes on the wire are, so
a later, wider field can carry bits that never were on the wire before.  This
module computes which values a stage can report and settles exactly when every
echo agrees with the wire.
-/

/-- The entry of the last occurrence of a name. -/
def lastOf
    {β : Type} :
    List (String × β) → String → Option β
  | [], _ => none
  | entry :: rest, name =>
      match lastOf rest name with
      | some found => some found
      | none => if entry.1 = name then some entry.2 else none

/-- Rewriting the entries commutes with taking the last one. -/
theorem lastOf_map
    {β γ δ : Type}
    (key : β → String)
    (first : β → γ)
    (change : γ → δ)
    (items : List β)
    (name : String) :
    lastOf (items.map fun item => (key item, change (first item))) name =
      (lastOf (items.map fun item => (key item, first item)) name).map
        change := by
  induction items with
  | nil =>
      rfl
  | cons item rest inductionHypothesis =>
      simp only [List.map_cons, lastOf, inductionHypothesis]
      cases lastOf (rest.map fun item => (key item, first item)) name with
      | some found =>
          rfl
      | none =>
          by_cases sameName : key item = name <;> simp [sameName]

/-- The last field of a name in a field list. -/
def lastField
    (fields : List Field)
    (name : String) : Option Field :=
  lastOf (fields.map fun field => (field.name, field)) name

/-- The last reported value is the value of the last field. -/
theorem lastOf_reported
    (fields : List Field)
    (name : String) :
    lastOf (reported fields) name =
      (lastField fields name).map Field.value :=
  lastOf_map Field.name id Field.value fields name

/-- The last carried value is the truncated value of the last field. -/
theorem lastOf_carried
    (fields : List Field)
    (name : String) :
    lastOf (carried fields) name =
      (lastField fields name).map
        fun field => wireValue field.value field.bits :=
  lastOf_map Field.name id
    (fun field => wireValue field.value field.bits) fields name

/-- Assigning fields in order leaves the last value of each name. -/
theorem foldl_assign
    (fields : List (String × UInt64))
    (base : Overrides)
    (name : String) :
    (fields.foldl Overrides.assign base) name =
      match lastOf fields name with
      | some value => some value
      | none => base name := by
  induction fields generalizing base with
  | nil =>
      rfl
  | cons field rest inductionHypothesis =>
      rw [List.foldl_cons, inductionHypothesis]
      simp only [lastOf]
      cases lastOf rest name with
      | some value =>
          rfl
      | none =>
          by_cases sameName : name = field.1
          · simp [Overrides.assign, sameName]
          · simp [Overrides.assign, sameName, Ne.symm sameName]

/--
The last field of a name carries a value chosen for the last variable of that
name, and there is such a field exactly when there is such a variable.
-/
theorem lastField_drawFields
    (choose : String → Var → G → UInt64 × G)
    (fields : List (String × Var))
    (name : String)
    (engine : G) :
    match lastOf fields name with
    | none => lastField (drawFields choose fields engine).1 name = none
    | some var =>
        ∃ before : G,
          lastField (drawFields choose fields engine).1 name =
            some {
              name := name
              value := (choose name var before).1
              bits := var.size } := by
  induction fields generalizing engine with
  | nil =>
      rfl
  | cons entry rest inductionHypothesis =>
      have later := inductionHypothesis (choose entry.1 entry.2 engine).2
      simp only [lastOf]
      cases found : lastOf rest name with
      | some var =>
          simp only [found] at later ⊢
          obtain ⟨before, chosen⟩ := later
          refine ⟨before, ?_⟩
          simp only [lastField] at chosen
          simp [lastField, drawFields, lastOf, chosen]
      | none =>
          simp only [found] at later ⊢
          simp only [lastField] at later
          by_cases sameName : entry.1 = name
          · subst sameName
            simp only [↓reduceIte]
            exact ⟨engine, by simp [lastField, drawFields, lastOf, later]⟩
          · simp [lastField, drawFields, lastOf, later, sameName]

namespace Session

/-- How a chain state chooses the values of its next stage. -/
def chainChoice
    (rng : Rng G)
    (state : ChainState G) : String → Var → G → UInt64 × G :=
  if state.stage = 0 then
    fun _ var => pickValue rng var
  else
    overrideValue rng state.overrides

/-- The fields drawn for the next stage of a chain state. -/
def chainFields
    (rng : Rng G)
    (varDb : Database Var)
    (state : ChainState G)
    (iface : ProtocolInterface) : List Field :=
  (drawFields (chainChoice rng state)
    (layout varDb iface.varRefs) state.engine).1

/-- A stage packs the fields its state draws. -/
theorem chainBuild_packet
    (rng : Rng G)
    (varDb : Database Var)
    (state : ChainState G)
    (iface : ProtocolInterface) :
    (chainBuild rng varDb state iface).1 =
      { bytes := packFields (chainFields rng varDb state iface)
        fields := reported (chainFields rng varDb state iface) } := by
  unfold chainBuild chainFields chainChoice
  split
  · simp [buildWithFields, buildLoop_eq]
  · simp [buildWithOverrides, buildLoop_eq]

/-- After a stage, the override map holds its last value of each name. -/
theorem chainStep_overrides
    (rng : Rng G)
    (varDb : Database Var)
    (state : ChainState G)
    (iface : ProtocolInterface)
    (name : String) :
    (chainStep rng varDb state iface).overrides name =
      (lastField (chainFields rng varDb state iface) name).map
        Field.value := by
  simp only [chainStep, foldl_assign, chainBuild_packet, lastOf_reported]
  cases lastField (chainFields rng varDb state iface) name <;> rfl

section Run

variable
    (rng : Rng G)
    (varDb : Database Var)
    (engine : G)

/-- Running one more stage takes one more step. -/
theorem chainRun_snoc
    (stages : List ProtocolInterface)
    (iface : ProtocolInterface) :
    chainRun rng varDb (stages ++ [iface]) engine =
      chainStep rng varDb (chainRun rng varDb stages engine) iface := by
  simp [chainRun]

/-- The stage counter counts the stages run. -/
theorem chainRun_stage
    (stages : List ProtocolInterface) :
    (chainRun rng varDb stages engine).stage = stages.length := by
  induction stages using List.reverseRecOn with
  | nil =>
      rfl
  | append_singleton stages iface inductionHypothesis =>
      rw [chainRun_snoc]
      simp [chainStep, inductionHypothesis]

/-- Later stages leave the packets of earlier ones alone. -/
theorem chainRun_round
    (stages : List ProtocolInterface)
    {index : Nat}
    {iface : ProtocolInterface}
    (atIndex : stages[index]? = some iface) :
    (chainRun rng varDb stages engine).round[index]? =
      some (iface.name,
        (chainBuild rng varDb
          (chainRun rng varDb (stages.take index) engine) iface).1) := by
  have rounds :
      ∀ stages : List ProtocolInterface,
        (chainRun rng varDb stages engine).round.length =
          stages.length := by
    intro stages
    induction stages using List.reverseRecOn with
    | nil =>
        rfl
    | append_singleton stages last inductionHypothesis =>
        rw [chainRun_snoc]
        simp [chainStep, inductionHypothesis]
  induction stages using List.reverseRecOn with
  | nil =>
      simp at atIndex
  | append_singleton stages last inductionHypothesis =>
      rw [chainRun_snoc]
      simp only [chainStep]
      by_cases earlier : index < stages.length
      · rw [List.getElem?_append_left earlier] at atIndex
        rw [List.getElem?_append_left (by rw [rounds]; exact earlier),
          List.take_append_of_le_length (Nat.le_of_lt earlier)]
        exact inductionHypothesis atIndex
      · rw [List.getElem?_append_right (not_lt.mp earlier),
          List.getElem?_singleton] at atIndex
        have isLast : index = stages.length := by
          by_contra different
          simp [show index - stages.length ≠ 0 by omega] at atIndex
        subst isLast
        simp only [Nat.sub_self, ↓reduceIte, Option.some.injEq] at atIndex
        subst atIndex
        rw [List.getElem?_append_right (by rw [rounds]), rounds]
        simp

end Run

/-- The latest of the given stages has a field of the name. -/
def Carries
    (varDb : Database Var) :
    List ProtocolInterface → String → Prop
  | [], _ => False
  | latest :: _, name =>
      (lastOf (layout varDb latest.varRefs) name).isSome = true

/--
Values that the last field of a name can report in the latest of the given
stages, listed latest first.  A field without expected values repeats, masked,
what the stage before reported under its name; any other field is drawn.
-/
def Reportable
    (varDb : Database Var) :
    List ProtocolInterface → String → UInt64 → Prop
  | [], _, _ => False
  | latest :: earlier, name, value =>
      ∃ var,
        lastOf (layout varDb latest.varRefs) name = some var ∧
          ((var.expectedValues = [] ∧ Carries varDb earlier name ∧
              ∃ sent,
                Reportable varDb earlier name sent ∧
                  value = var.masked sent) ∨
            (¬ (var.expectedValues = [] ∧ Carries varDb earlier name) ∧
              var.Pickable value))

/-- The override map has a name exactly when the latest stage carries it. -/
theorem isSome_chainRun_overrides
    (rng : Rng G)
    (varDb : Database Var)
    (engine : G)
    (stages : List ProtocolInterface)
    (name : String) :
    ((chainRun rng varDb stages engine).overrides name).isSome = true ↔
      Carries varDb stages.reverse name := by
  induction stages using List.reverseRecOn with
  | nil =>
      simp [chainRun, Carries]
  | append_singleton stages iface inductionHypothesis =>
      rw [chainRun_snoc, chainStep_overrides, List.reverse_concat]
      have drawn :=
        lastField_drawFields
          (chainChoice rng (chainRun rng varDb stages engine))
          (layout varDb iface.varRefs) name
          (chainRun rng varDb stages engine).engine
      simp only [Carries, chainFields]
      cases declared : lastOf (layout varDb iface.varRefs) name with
      | none =>
          simp only [declared] at drawn
          simp [drawn]
      | some var =>
          simp only [declared] at drawn
          obtain ⟨before, chosen⟩ := drawn
          simp [chosen]

/--
The choice of a stage: a name without expected values that the stage before
carries repeats the overriding value, any other is picked.
-/
theorem chainChoice_cases
    (rng : Rng G)
    (varDb : Database Var)
    (engine : G)
    (stages : List ProtocolInterface)
    (name : String)
    (var : Var)
    (before : G) :
    let state := chainRun rng varDb stages engine
    (var.expectedValues = [] ∧ Carries varDb stages.reverse name ∧
        ∃ sent,
          state.overrides name = some sent ∧
            (chainChoice rng state name var before).1 = var.masked sent) ∨
      (¬ (var.expectedValues = [] ∧ Carries varDb stages.reverse name) ∧
        chainChoice rng state name var before =
          pickValue rng var before) := by
  intro state
  have carried :=
    isSome_chainRun_overrides rng varDb engine stages name
  have counted := chainRun_stage rng varDb engine stages
  by_cases empty : stages = []
  · right
    subst empty
    refine ⟨by simp [Carries], ?_⟩
    simp [state, chainChoice, chainRun]
  · have later : state.stage ≠ 0 := by
      rw [show state.stage = stages.length from counted]
      simpa using empty
    by_cases unlisted : var.expectedValues = []
    · cases overridden : state.overrides name with
      | some sent =>
          left
          rw [show (chainRun rng varDb stages engine).overrides name =
            some sent from overridden] at carried
          refine ⟨unlisted, carried.mp rfl, sent, rfl, ?_⟩
          simp [chainChoice, later, overrideValue, unlisted, overridden,
            Var.masked]
      | none =>
          right
          rw [show (chainRun rng varDb stages engine).overrides name =
            none from overridden] at carried
          refine ⟨?_, ?_⟩
          · rintro ⟨-, carries⟩
            simpa using carried.mpr carries
          · simp [chainChoice, later, overrideValue, unlisted, overridden]
    · right
      refine ⟨fun both => unlisted both.1, ?_⟩
      simp [chainChoice, later, overrideValue, unlisted]

/-- Every value a run reports is reportable. -/
theorem reportable_of_chainRun
    {rng : Rng G}
    {varDb : Database Var}
    {engine : G}
    {stages : List ProtocolInterface}
    {name : String}
    {value : UInt64}
    (reports :
      (chainRun rng varDb stages engine).overrides name = some value) :
    Reportable varDb stages.reverse name value := by
  induction stages using List.reverseRecOn generalizing value with
  | nil =>
      simp [chainRun] at reports
  | append_singleton stages iface inductionHypothesis =>
      rw [chainRun_snoc, chainStep_overrides] at reports
      rw [List.reverse_concat]
      have drawn :=
        lastField_drawFields
          (chainChoice rng (chainRun rng varDb stages engine))
          (layout varDb iface.varRefs) name
          (chainRun rng varDb stages engine).engine
      simp only [chainFields] at reports
      cases declared : lastOf (layout varDb iface.varRefs) name with
      | none =>
          simp only [declared] at drawn
          simp [drawn] at reports
      | some var =>
          simp only [declared] at drawn
          obtain ⟨before, chosen⟩ := drawn
          rw [chosen, Option.map_some, Option.some.injEq] at reports
          subst reports
          refine ⟨var, declared, ?_⟩
          rcases chainChoice_cases rng varDb engine stages name var before
            with ⟨unlisted, carries, sent, overriding, masked⟩ |
              ⟨free, picked⟩
          · left
            exact ⟨unlisted, carries, sent,
              inductionHypothesis overriding, masked⟩
          · right
            refine ⟨free, ?_⟩
            simp only [picked]
            exact pickValue_pickable rng var before

/-- Every reportable value is reported under some random outcome. -/
theorem exists_answer_of_reportable
    {varDb : Database Var}
    {stages : List ProtocolInterface}
    {name : String}
    {value : UInt64}
    (reportable : Reportable varDb stages.reverse name value) :
    ∃ answer,
      (chainRun (Rng.constant answer) varDb stages ()).overrides name =
        some value := by
  induction stages using List.reverseRecOn generalizing value with
  | nil =>
      simp [Reportable] at reportable
  | append_singleton stages iface inductionHypothesis =>
      rw [List.reverse_concat] at reportable
      obtain ⟨var, declared, origin⟩ := reportable
      have lastChosen :
          ∀ answer,
            ∃ before,
              (chainRun (Rng.constant answer) varDb
                (stages ++ [iface]) ()).overrides name =
                some (chainChoice (Rng.constant answer)
                  (chainRun (Rng.constant answer) varDb stages ())
                  name var before).1 := by
        intro answer
        have drawn :=
          lastField_drawFields
            (chainChoice (Rng.constant answer)
              (chainRun (Rng.constant answer) varDb stages ()))
            (layout varDb iface.varRefs) name
            (chainRun (Rng.constant answer) varDb stages ()).engine
        simp only [declared] at drawn
        obtain ⟨before, chosen⟩ := drawn
        refine ⟨before, ?_⟩
        rw [chainRun_snoc, chainStep_overrides, chainFields, chosen]
        rfl
      rcases origin with
        ⟨unlisted, carries, sent, earlier, rfl⟩ | ⟨free, pickable⟩
      · obtain ⟨answer, sentReported⟩ := inductionHypothesis earlier
        refine ⟨answer, ?_⟩
        obtain ⟨before, reports⟩ := lastChosen answer
        rw [reports]
        rcases chainChoice_cases (Rng.constant answer) varDb ()
            stages name var before with
          ⟨-, -, found, overriding, masked⟩ | ⟨free, -⟩
        · rw [sentReported, Option.some.injEq] at overriding
          rw [masked, ← overriding]
        · exact absurd ⟨unlisted, carries⟩ free
      · obtain ⟨answer, picked⟩ := exists_answer_of_pickable pickable
        refine ⟨answer, ?_⟩
        obtain ⟨before, reports⟩ := lastChosen answer
        rw [reports]
        rcases chainChoice_cases (Rng.constant answer) varDb ()
            stages name var before with
          ⟨unlisted, carries, -⟩ | ⟨-, chosen⟩
        · exact absurd ⟨unlisted, carries⟩ free
        · rw [chosen, picked before]

/--
A stage echoes the wire of the stage before it: every field without expected
values whose name the earlier packet has decodes to the value decoded there
for the last field of that name, masked and reduced to the field's own width.
-/
def EchoesWire
    (varDb : Database Var)
    (previous current : ProtocolInterface)
    (sent received : BuiltPacket) : Prop :=
  ∀ (index : Nat) (name : String) (var : Var) (wire : UInt64),
    (layout varDb current.varRefs)[index]? = some (name, var) →
    var.expectedValues = [] →
    lastOf (PacketDecoder.decode previous varDb sent.bytes 0).fields name =
      some wire →
    ∃ value,
      (PacketDecoder.decode current varDb received.bytes 0).fields[index]? =
          some (name, value) ∧
        value.toNat =
          (var.masked wire).toNat % 2 ^ min var.size.toNat 64

/-- Under every random outcome, every stage of a chain echoes the wire. -/
def ChainEchoes
    (session : Session)
    (stages : List ProtocolInterface) : Prop :=
  ∀ (G : Type) (rng : Rng G) (engine : G) (index : Nat)
    (previous current : ProtocolInterface) (sent received : Layer),
    stages[index]? = some previous →
    stages[index + 1]? = some current →
    (session.generateChain rng stages engine).1[index]? = some sent →
    (session.generateChain rng stages engine).1[index + 1]? =
      some received →
    EchoesWire session.varDb previous current sent.2 received.2

/--
No echo can restore a lost bit: whatever value a stage can report for the last
field of a name, a field of that name in the next stage does not, after its
mask, carry a bit of it that the earlier field was too narrow for.
-/
def NoBitRestored
    (varDb : Database Var)
    (stages : List ProtocolInterface) : Prop :=
  ∀ (index : Nat) (previous current : ProtocolInterface),
    stages[index]? = some previous →
    stages[index + 1]? = some current →
    ∀ (name : String) (var previousVar : Var) (value : UInt64),
      (name, var) ∈ layout varDb current.varRefs →
      var.expectedValues = [] →
      lastOf (layout varDb previous.varRefs) name = some previousVar →
      Reportable varDb (stages.take (index + 1)).reverse name value →
      ∀ bit,
        previousVar.size.toNat ≤ bit →
        bit < var.size.toNat →
        (var.masked value).toNat.testBit bit = false

/-- Masking keeps the bits inside the mask. -/
private theorem testBit_masked
    (var : Var)
    (value : UInt64)
    (bit : Nat) :
    (var.masked value).toNat.testBit bit =
      (value.toNat.testBit bit &&
        (!var.hasMask || var.mask.toNat.testBit bit)) := by
  unfold Var.masked
  split
  next declared =>
    simp [declared]
  next absent =>
    simp [absent]

/--
The later field carries the masked wire value exactly when the masked value
has no bit between the two widths.
-/
theorem wireValue_masked_iff
    (var : Var)
    (value : UInt64)
    (bits : UInt32) :
    (wireValue (var.masked value) var.size).toNat =
        (var.masked (wireValue value bits)).toNat %
          2 ^ min var.size.toNat 64 ↔
      ∀ bit,
        bits.toNat ≤ bit →
        bit < var.size.toNat →
        (var.masked value).toNat.testBit bit = false := by
  rw [← toNat_wireValue]
  constructor
  · intro same bit lost carried
    have atBit := congrArg (fun number => number.testBit bit) same
    have notKept : ¬ bit < bits.toNat := by
      omega
    simpa [testBit_wireValue, testBit_masked, notKept, carried] using atBit
  · intro cleared
    apply Nat.eq_of_testBit_eq
    intro bit
    rw [testBit_wireValue, testBit_wireValue]
    by_cases carried : bit < var.size.toNat
    · by_cases kept : bit < bits.toNat
      · simp [testBit_masked, testBit_wireValue, kept]
      · rw [cleared bit (not_lt.mp kept) carried, testBit_masked,
          testBit_wireValue]
        simp [kept]
    · simp [carried]

/-- A stage decodes to the carried values of the fields it drew. -/
private theorem decode_chainBuild
    {varDb : Database Var}
    (narrow : NarrowWidths varDb)
    (rng : Rng G)
    (state : ChainState G)
    (iface : ProtocolInterface) :
    PacketDecoder.decode iface varDb
        (chainBuild rng varDb state iface).1.bytes 0 =
      { bytes := packFields (chainFields rng varDb state iface)
        fields := carried (chainFields rng varDb state iface) } := by
  rw [chainBuild_packet]
  exact decode_packed_alone narrow
    (shapeOf_drawFields (chainChoice rng state)
      (layout varDb iface.varRefs) state.engine)

/--
What two consecutive stages decode to: the earlier one carries the reported
value in the width of its last field, the later one repeats it masked.
-/
theorem decoded_echo
    {varDb : Database Var}
    (narrow : NarrowWidths varDb)
    (rng : Rng G)
    (engine : G)
    (stages : List ProtocolInterface)
    {previous current : ProtocolInterface}
    {index : Nat}
    {name : String}
    {var previousVar : Var}
    (entryAt :
      (layout varDb current.varRefs)[index]? = some (name, var))
    (unlisted : var.expectedValues = [])
    (declared :
      lastOf (layout varDb previous.varRefs) name = some previousVar) :
    ∃ value,
      (chainRun rng varDb (stages ++ [previous]) engine).overrides name =
          some value ∧
        lastOf (PacketDecoder.decode previous varDb
            (chainBuild rng varDb (chainRun rng varDb stages engine)
              previous).1.bytes 0).fields name =
          some (wireValue value previousVar.size) ∧
        (PacketDecoder.decode current varDb
            (chainBuild rng varDb
              (chainRun rng varDb (stages ++ [previous]) engine)
              current).1.bytes 0).fields[index]? =
          some (name, wireValue (var.masked value) var.size) := by
  have drawn :=
    lastField_drawFields
      (chainChoice rng (chainRun rng varDb stages engine))
      (layout varDb previous.varRefs) name
      (chainRun rng varDb stages engine).engine
  simp only [declared] at drawn
  obtain ⟨before, chosen⟩ := drawn
  have reports :
      (chainRun rng varDb (stages ++ [previous]) engine).overrides name =
        some (chainChoice rng (chainRun rng varDb stages engine)
          name previousVar before).1 := by
    rw [chainRun_snoc, chainStep_overrides, chainFields, chosen]
    rfl
  refine ⟨_, reports, ?_, ?_⟩
  · rw [decode_chainBuild narrow, lastOf_carried, chainFields, chosen]
    rfl
  · obtain ⟨later, fieldAt⟩ :=
      drawFields_getElem?
        (chainChoice rng
          (chainRun rng varDb (stages ++ [previous]) engine))
        entryAt
        (chainRun rng varDb (stages ++ [previous]) engine).engine
    have carries :
        Carries varDb (stages ++ [previous]).reverse name := by
      rw [← isSome_chainRun_overrides rng varDb engine, reports]
      rfl
    have repeated :
        (chainChoice rng
            (chainRun rng varDb (stages ++ [previous]) engine)
            name var later).1 =
          var.masked
            (chainChoice rng (chainRun rng varDb stages engine)
              name previousVar before).1 := by
      rcases chainChoice_cases rng varDb engine (stages ++ [previous])
          name var later with
        ⟨-, -, found, overriding, masked⟩ | ⟨free, -⟩
      · rw [reports, Option.some.injEq] at overriding
        rw [masked, overriding]
      · exact absurd ⟨unlisted, carries⟩ free
    rw [decode_chainBuild narrow, carried, List.getElem?_map,
      chainFields, fieldAt, Option.map_some, repeated]

/-- A name decoded from a stage is declared by it. -/
private theorem declared_of_decoded
    {varDb : Database Var}
    (narrow : NarrowWidths varDb)
    {rng : Rng G}
    {state : ChainState G}
    {iface : ProtocolInterface}
    {name : String}
    {wire : UInt64}
    (decoded :
      lastOf (PacketDecoder.decode iface varDb
        (chainBuild rng varDb state iface).1.bytes 0).fields name =
          some wire) :
    ∃ var, lastOf (layout varDb iface.varRefs) name = some var := by
  have drawn :=
    lastField_drawFields (chainChoice rng state)
      (layout varDb iface.varRefs) name state.engine
  rw [decode_chainBuild narrow, lastOf_carried, chainFields] at decoded
  cases declared : lastOf (layout varDb iface.varRefs) name with
  | some var =>
      exact ⟨var, rfl⟩
  | none =>
      simp only [declared] at drawn
      simp [drawn] at decoded

/--
A chain echoes the wire under every random outcome exactly when no echo can
restore a bit that an earlier, narrower field lost.
-/
theorem chainEchoes_iff
    (session : Session)
    (narrow : NarrowWidths session.varDb)
    (stages : List ProtocolInterface) :
    ChainEchoes session stages ↔ NoBitRestored session.varDb stages := by
  have takeNext :
      ∀ {index : Nat} {previous : ProtocolInterface},
        stages[index]? = some previous →
        stages.take (index + 1) = stages.take index ++ [previous] := by
    intro index previous atIndex
    rw [List.take_add_one, atIndex]
    rfl
  constructor
  · intro echoes index previous current previousAt currentAt
      name var previousVar value member unlisted declared reportable
    obtain ⟨position, entryAt⟩ := List.getElem?_of_mem member
    rw [takeNext previousAt] at reportable
    obtain ⟨answer, reports⟩ := exists_answer_of_reportable reportable
    obtain ⟨found, foundReports, wireAt, valueAt⟩ :=
      decoded_echo narrow (Rng.constant answer) ()
        (stages.take index) entryAt unlisted declared
    rw [reports, Option.some.injEq] at foundReports
    subst foundReports
    have echo :=
      echoes Unit (Rng.constant answer) () index previous current _ _
        previousAt currentAt
        (chainRun_round (Rng.constant answer) session.varDb () stages
          previousAt)
        (chainRun_round (Rng.constant answer) session.varDb () stages
          currentAt)
    rw [takeNext previousAt] at echo
    obtain ⟨received, receivedAt, same⟩ :=
      echo position name var _ entryAt unlisted wireAt
    rw [valueAt, Option.some.injEq, Prod.mk.injEq] at receivedAt
    rw [← receivedAt.2] at same
    exact (wireValue_masked_iff var value previousVar.size).mp same
  · intro condition G rng engine index previous current sent received
      previousAt currentAt sentAt receivedAt
    rw [generateChain,
      chainRun_round rng session.varDb engine stages previousAt,
      Option.some.injEq] at sentAt
    rw [generateChain,
      chainRun_round rng session.varDb engine stages currentAt,
      Option.some.injEq, takeNext previousAt] at receivedAt
    rw [← sentAt, ← receivedAt]
    intro position name var wire entryAt unlisted decoded
    obtain ⟨previousVar, declared⟩ := declared_of_decoded narrow decoded
    obtain ⟨value, reports, wireAt, valueAt⟩ :=
      decoded_echo narrow rng engine (stages.take index)
        entryAt unlisted declared
    rw [wireAt, Option.some.injEq] at decoded
    refine ⟨_, valueAt, ?_⟩
    rw [← decoded]
    apply (wireValue_masked_iff var value previousVar.size).mpr
    apply condition index previous current previousAt currentAt name var
      previousVar value (List.mem_of_getElem? entryAt) unlisted declared
    rw [takeNext previousAt]
    exact reportable_of_chainRun reports

/-- Two stages of one interface restore no bit: their widths agree. -/
private theorem noBitRestored_unaligned :
    NoBitRestored unalignedVarDb
      [unalignedInterface, unalignedInterface] := by
  have sameWidths :
      ∀ name var previousVar,
        (name, var) ∈ layout unalignedVarDb unalignedInterface.varRefs →
        lastOf (layout unalignedVarDb unalignedInterface.varRefs) name =
          some previousVar →
        var.size = previousVar.size := by
    intro name var previousVar member declared
    have shape :
        layout unalignedVarDb unalignedInterface.varRefs =
          [("flag",
              { name := "svc::flag"
                size := 3
                expectedValues := []
                range := none
                mask := 0 }),
            ("blob",
              { name := "svc::blob"
                size := 70
                expectedValues := []
                range := none
                mask := 0 }),
            ("flag",
              { name := "svc::flag"
                size := 3
                expectedValues := []
                range := none
                mask := 0 })] := by
      decide
    rw [shape] at member declared
    simp only [List.mem_cons, Prod.mk.injEq, List.not_mem_nil,
      or_false] at member
    rcases member with ⟨rfl, rfl⟩ | ⟨rfl, rfl⟩ | ⟨rfl, rfl⟩ <;>
      cases declared <;> rfl
  intro index previous current previousAt currentAt name var previousVar
    value member unlisted declared reportable bit above below
  have sameStage :
      ∀ {position : Nat} {stage : ProtocolInterface},
        [unalignedInterface, unalignedInterface][position]? = some stage →
        stage = unalignedInterface := by
    intro position stage stageAt
    simpa using List.mem_of_getElem? stageAt
  rw [sameStage currentAt] at member
  rw [sameStage previousAt] at declared
  have sameWidth := sameWidths name var previousVar member declared
  rw [sameWidth] at below
  omega

theorem chainEchoes_unaligned :
    ChainEchoes
      { varDb := unalignedVarDb
        interfaceDb := .empty
        serviceDb := .empty }
      [unalignedInterface, unalignedInterface] :=
  (chainEchoes_iff
    { varDb := unalignedVarDb
      interfaceDb := .empty
      serviceDb := .empty }
    (by decide) [unalignedInterface, unalignedInterface]).mpr
    noBitRestored_unaligned

/-- A protocol document with one field `x` of the given width. -/
def singleFieldDocument
    (service size : String) : Yaml :=
  .map [
    ("service", .scalar service),
    ("vars", .seq [
      .map [("var", .scalar "x"), ("size", .scalar size)]]),
    ("entities", .seq [
      .map [
        ("entity", .scalar "E"),
        ("interfaces", .seq [
          .map [
            ("interface", .scalar "IF"),
            ("dir", .scalar "in"),
            ("vars", .seq [.map [("var_ref", .scalar "x")]])]])]])]

/-- The interface declared by `singleFieldDocument`. -/
def singleFieldInterface
    (service : String) : ProtocolInterface where
  name := service ++ "::E::IF"
  direction := .IN
  varRefs := [service ++ "::x"]

/--
Three accepted stages of widths 16, 8 and 16: from the draw `0x1234` the
second packet carries `0x34`, yet the third one carries `0x1234` again.
-/
theorem chain_restores_lost_bits :
    ¬ ∀ (isNumber : String → Bool) (roots : List Yaml) (session : Session),
        (∀ root ∈ roots, ProtocolValidator.Accepts root) →
        Protocol.parseProtocolFiles isNumber roots = .ok session →
        NarrowWidths session.varDb →
        ∀ stages : List ProtocolInterface,
          (∀ stage ∈ stages,
            session.interfaceDb.getElement stage.name = some stage) →
          ChainEchoes session stages := by
  intro allEcho
  have echoes :=
    allEcho (fun _ => false)
      [singleFieldDocument "wide" "16", singleFieldDocument "narrow" "8"]
      _ (by decide) rfl (by decide)
      [singleFieldInterface "wide", singleFieldInterface "narrow",
        singleFieldInterface "wide"] (by decide)
  obtain ⟨value, decoded, echoed⟩ :=
    echoes Unit (Rng.constant 0x1234) () 1 _ _ _ _ rfl rfl rfl rfl
      0 "x" _ 0x34 rfl rfl (by decide)
  have wide : some ("x", (0x1234 : UInt64)) = some ("x", value) :=
    (show _ = _ by decide).trans decoded
  cases wide
  exact absurd echoed (by decide)

end Session

end TsnGen
