import TsnGen.PacketDecoder
import TsnGen.Protocol
import TsnGen.Validator

namespace TsnGen

open PacketBuilder

/-!
# Generated values and declared constraints

A variable may declare expected values, a range or a mask, in this priority.
The module states which values `pickValue` can return, which values obey the
declaration and fit the field, and settles exactly when a built packet reports
obedient values only.
-/

namespace Var

/-- A value with the declared mask applied, if there is one. -/
def masked
    (var : Var)
    (value : UInt64) : UInt64 :=
  if var.hasMask then value &&& var.mask else value

/-- A value lies between the smaller and the larger bound of a range. -/
def InRange
    (range : Range)
    (value : UInt64) : Prop :=
  min range.min.toNat range.max.toNat ≤ value.toNat ∧
    value.toNat ≤ max range.min.toNat range.max.toNat

/-- A value obeys the declared constraint of highest priority. -/
def Complies
    (var : Var)
    (value : UInt64) : Prop :=
  if var.expectedValues ≠ [] then
    value ∈ var.expectedValues
  else
    match var.range with
    | some range => InRange range value
    | none => var.hasMask = true → value &&& ~~~var.mask = 0

/-- A value is representable in the field. -/
def Fits
    (var : Var)
    (value : UInt64) : Prop :=
  value.toNat < 2 ^ min var.size.toNat 64

/-- The values that `pickValue` can return for some random outcome. -/
def Pickable
    (var : Var)
    (value : UInt64) : Prop :=
  if var.expectedValues ≠ [] then
    value ∈ var.expectedValues
  else
    match var.range with
    | some range => InRange range value
    | none =>
        ∃ drawn : UInt64,
          drawn.toNat ≤ (maxVal var.size).toNat ∧
            value = var.masked drawn

/--
The declared constraint leaves no value that is too wide for the field: every
expected value fits or, without expected values, the larger range bound does.
-/
def PicksFit
    (var : Var) : Prop :=
  if var.expectedValues ≠ [] then
    ∀ value ∈ var.expectedValues, var.Fits value
  else
    match var.range with
    | some range =>
        max range.min.toNat range.max.toNat < 2 ^ min var.size.toNat 64
    | none => True

/--
An override of a variable without expected values is acceptable when, masked,
it lies in the declared range, if any, and fits the field.
-/
def AcceptsOverride
    (var : Var)
    (value : UInt64) : Prop :=
  (∀ range, var.range = some range → InRange range (var.masked value)) ∧
    var.Fits (var.masked value)

/-- A masked value has no bit outside the mask. -/
theorem masked_and_not_mask
    (var : Var)
    (value : UInt64)
    (declared : var.hasMask = true) :
    var.masked value &&& ~~~var.mask = 0 := by
  rw [masked, if_pos declared, UInt64.and_assoc, UInt64.and_not_self,
    UInt64.and_zero]

/-- Masking never enlarges a value. -/
theorem toNat_masked_le
    (var : Var)
    (value : UInt64) :
    (var.masked value).toNat ≤ value.toNat := by
  unfold masked
  split
  · rw [UInt64.toNat_and]
    exact Nat.and_le_left
  · exact Nat.le_refl _

end Var

namespace PacketBuilder

/-- The largest value of a field is all ones in its representable width. -/
theorem toNat_maxVal
    (size : UInt32) :
    (maxVal size).toNat = 2 ^ min size.toNat 64 - 1 := by
  unfold maxVal
  split
  next wide =>
    have wideNat : 64 ≤ size.toNat := wide
    rw [Nat.min_eq_right wideNat]
    rfl
  next narrow =>
    have narrowNat : size.toNat < 64 := not_le.mp narrow
    have shift : size.toNat < UInt64.size := by
      simp only [UInt64.size]
      omega
    have small : 2 ^ size.toNat < 2 ^ 64 :=
      Nat.pow_lt_pow_right (by decide) narrowNat
    have shifted :
        ((1 : UInt64) <<< UInt64.ofNat size.toNat).toNat =
          2 ^ size.toNat := by
      rw [UInt64.toNat_shiftLeft, UInt64.toNat_ofNat_of_lt' shift,
        Nat.mod_eq_of_lt narrowNat, UInt64.toNat_one, Nat.one_shiftLeft,
        Nat.mod_eq_of_lt small]
    have positive : (1 : UInt64) ≤ 1 <<< UInt64.ofNat size.toNat := by
      rw [UInt64.le_iff_toNat_le, shifted]
      exact Nat.one_le_two_pow
    rw [UInt64.toNat_sub_of_le _ _ positive, shifted,
      Nat.min_eq_left (Nat.le_of_lt narrowNat)]
    rfl

/-- The draw bounds of a range are its smaller and its larger bound. -/
private theorem rangeBounds
    (range : Range) :
    (if range.min ≤ range.max then range.min else range.max).toNat =
        min range.min.toNat range.max.toNat ∧
      (if range.min ≤ range.max then range.max else range.min).toNat =
        max range.min.toNat range.max.toNat := by
  by_cases ordered : range.min ≤ range.max
  · have orderedNat := UInt64.le_iff_toNat_le.mp ordered
    simp [ordered, orderedNat]
  · have reversedNat : range.max.toNat ≤ range.min.toNat := by
      rw [UInt64.le_iff_toNat_le] at ordered
      omega
    simp [ordered, reversedNat]

/-- Whatever the engine draws, the picked value is pickable. -/
theorem pickValue_pickable
    (rng : Rng G)
    (var : Var)
    (engine : G) :
    var.Pickable (pickValue rng var engine).1 := by
  unfold pickValue Var.Pickable
  by_cases listed : var.expectedValues ≠ []
  · have positive := List.length_pos_of_ne_nil listed
    have drawn :=
      rng.draw_mem 0 (var.expectedValues.length - 1) engine
        (Nat.zero_le _)
    have inside :
        (rng.draw 0 (var.expectedValues.length - 1) engine).1 <
          var.expectedValues.length := by
      omega
    simp only [listed, ↓reduceIte, ne_eq, not_false_eq_true]
    rw [List.getD_eq_getElem _ _ inside]
    exact List.getElem_mem inside
  · simp only [listed, ↓reduceIte]
    cases declared : var.range with
    | some range =>
        obtain ⟨lowShape, highShape⟩ := rangeBounds range
        have drawn :=
          rng.draw_mem
            (min range.min.toNat range.max.toNat)
            (max range.min.toNat range.max.toNat)
            engine (min_le_max)
        have small :
            max range.min.toNat range.max.toNat < UInt64.size :=
          max_lt range.min.toNat_lt range.max.toNat_lt
        simp only [Var.InRange, lowShape, highShape]
        rw [UInt64.toNat_ofNat_of_lt' (lt_of_le_of_lt drawn.2 small)]
        exact drawn
    | none =>
        by_cases empty : var.size = 0
        · refine ⟨0, by simp, ?_⟩
          simp [empty, Var.masked]
        · have drawn :=
            rng.draw_mem 0 (maxVal var.size).toNat engine (Nat.zero_le _)
          refine ⟨UInt64.ofNat (rng.draw 0 (maxVal var.size).toNat engine).1,
            ?_, ?_⟩
          · rw [UInt64.toNat_ofNat_of_lt'
              (lt_of_le_of_lt drawn.2 (maxVal var.size).toNat_lt)]
            exact drawn.2
          · simp [empty, Var.masked]

/-- Every pickable value is picked for some random outcome. -/
theorem exists_answer_of_pickable
    {var : Var}
    {value : UInt64}
    (pickable : var.Pickable value) :
    ∃ answer,
      ∀ engine, (pickValue (Rng.constant answer) var engine).1 = value := by
  unfold Var.Pickable at pickable
  unfold pickValue
  by_cases listed : var.expectedValues ≠ []
  · simp only [listed, ↓reduceIte, ne_eq, not_false_eq_true] at pickable ⊢
    obtain ⟨index, inside, atIndex⟩ := List.getElem_of_mem pickable
    refine ⟨index, fun _ => ?_⟩
    have answered : index ≤ var.expectedValues.length - 1 := by
      omega
    simp only [Rng.constant, Nat.zero_le, answered, and_self, ↓reduceIte]
    rw [List.getD_eq_getElem _ _ inside]
    exact atIndex
  · simp only [listed, ↓reduceIte] at pickable ⊢
    cases declared : var.range with
    | some range =>
        obtain ⟨lowShape, highShape⟩ := rangeBounds range
        simp only [declared, Var.InRange] at pickable
        refine ⟨value.toNat, fun _ => ?_⟩
        simp [Rng.constant, lowShape, highShape, pickable]
    | none =>
        simp only [declared] at pickable
        obtain ⟨drawn, bounded, valueShape⟩ := pickable
        refine ⟨drawn.toNat, fun _ => ?_⟩
        by_cases empty : var.size = 0
        · have zero : drawn = 0 := by
            apply UInt64.toNat_inj.mp
            rw [toNat_maxVal, empty] at bounded
            simpa using bounded
          simp [empty, valueShape, zero, Var.masked]
        · simp [empty, Rng.constant, bounded, valueShape, Var.masked]

/-- The field at a layout position carries a value chosen for its variable. -/
theorem drawFields_getElem?
    (choose : String → Var → G → UInt64 × G)
    {fields : List (String × Var)}
    {index : Nat}
    {name : String}
    {var : Var}
    (atIndex : fields[index]? = some (name, var))
    (engine : G) :
    ∃ before : G,
      (drawFields choose fields engine).1[index]? =
        some {
          name := name
          value := (choose name var before).1
          bits := var.size } := by
  induction fields generalizing index engine with
  | nil =>
      simp at atIndex
  | cons entry rest inductionHypothesis =>
      cases index with
      | zero =>
          simp only [List.getElem?_cons_zero, Option.some.injEq] at atIndex
          subst atIndex
          exact ⟨engine, by simp [drawFields]⟩
      | succ index =>
          simp only [List.getElem?_cons_succ] at atIndex
          obtain ⟨before, chosen⟩ :=
            inductionHypothesis atIndex (choose entry.1 entry.2 engine).2
          exact ⟨before, by simpa [drawFields] using chosen⟩

/-- Reported fields come from layout positions, with their chosen values. -/
theorem exists_choice_of_reported
    (choose : String → Var → G → UInt64 × G)
    {fields : List (String × Var)}
    {engine : G}
    {index : Nat}
    {name : String}
    {value : UInt64}
    (reportedAt :
      (reported (drawFields choose fields engine).1)[index]? =
        some (name, value)) :
    ∃ var before,
      fields[index]? = some (name, var) ∧
        value = (choose name var before).1 := by
  have sameLength :
      (drawFields choose fields engine).1.length = fields.length := by
    have shape := congrArg List.length (shapeOf_drawFields choose fields engine)
    simpa [shapeOf] using shape
  have inside : index < fields.length := by
    rw [← sameLength]
    have bound := List.getElem?_eq_some_iff.mp reportedAt
    simpa [reported] using bound.1
  have entryAt := List.getElem?_eq_getElem inside
  obtain ⟨before, fieldAt⟩ :=
    drawFields_getElem? choose
      (show fields[index]? =
        some (fields[index].1, fields[index].2) from entryAt) engine
  rw [reported, List.getElem?_map, fieldAt, Option.map_some,
    Option.some.injEq, Prod.mk.injEq] at reportedAt
  obtain ⟨sameName, sameValue⟩ := reportedAt
  refine ⟨fields[index].2, before, ?_, ?_⟩
  · rw [entryAt, ← sameName]
  · rw [← sameValue, ← sameName]

end PacketBuilder

namespace Var

/-- Pickable values obey the declared constraint. -/
theorem Pickable.complies
    {var : Var}
    {value : UInt64}
    (pickable : var.Pickable value) :
    var.Complies value := by
  unfold Pickable at pickable
  unfold Complies
  split
  next listed =>
    simpa [listed] using pickable
  next unlisted =>
    simp only [unlisted, ↓reduceIte] at pickable
    cases declared : var.range with
    | some range =>
        simpa [declared] using pickable
    | none =>
        simp only [declared] at pickable
        obtain ⟨drawn, -, rfl⟩ := pickable
        exact var.masked_and_not_mask drawn

/-- Every pickable value fits exactly when the declaration is narrow enough. -/
theorem picksFit_iff
    (var : Var) :
    var.PicksFit ↔ ∀ value, var.Pickable value → var.Fits value := by
  unfold PicksFit Pickable
  by_cases listed : var.expectedValues ≠ []
  · simp [listed]
  · simp only [listed, ↓reduceIte]
    cases declared : var.range with
    | some range =>
        constructor
        · intro bounded value inRange
          exact lt_of_le_of_lt inRange.2 bounded
        · intro allFit
          change
            max range.min.toNat range.max.toNat <
              2 ^ min var.size.toNat 64
          by_cases ordered : range.min.toNat ≤ range.max.toNat
          · have largest := allFit range.max
              ⟨min_le_right _ _, le_max_right _ _⟩
            rw [max_eq_right ordered]
            exact largest
          · have largest := allFit range.min
              ⟨min_le_left _ _, le_max_left _ _⟩
            rw [max_eq_left (Nat.le_of_not_le ordered)]
            exact largest
    | none =>
        simp only [true_iff]
        rintro value ⟨drawn, bounded, rfl⟩
        have positive : 0 < 2 ^ min var.size.toNat 64 :=
          Nat.two_pow_pos _
        rw [toNat_maxVal] at bounded
        have smaller := var.toNat_masked_le drawn
        unfold Fits
        omega

/-- Without expected values, an acceptable override obeys the constraint. -/
theorem AcceptsOverride.complies
    {var : Var}
    {value : UInt64}
    (unlisted : var.expectedValues = [])
    (accepted : var.AcceptsOverride value) :
    var.Complies (var.masked value) := by
  unfold Complies
  simp only [unlisted, ne_eq, not_true_eq_false, ↓reduceIte]
  cases declared : var.range with
  | some range =>
      exact accepted.1 range declared
  | none =>
      exact var.masked_and_not_mask value

/-- Without expected values, an obedient fitting override is acceptable. -/
theorem AcceptsOverride.of_complies
    {var : Var}
    {value : UInt64}
    (unlisted : var.expectedValues = [])
    (complies : var.Complies (var.masked value))
    (fits : var.Fits (var.masked value)) :
    var.AcceptsOverride value := by
  refine ⟨?_, fits⟩
  intro range declared
  simpa [Complies, unlisted, declared] using complies

end Var

/-- Every reported value obeys its variable and is carried unchanged. -/
def ValuesObey
    (varDb : Database Var)
    (iface : ProtocolInterface)
    (packet : BuiltPacket) : Prop :=
  ∀ (index : Nat) (name : String) (value : UInt64),
    packet.fields[index]? = some (name, value) →
    ∃ var : Var,
      (layout varDb iface.varRefs)[index]? = some (name, var) ∧
        var.Complies value ∧ var.Fits value

/-- Both builders, under every random outcome, report obedient values. -/
def BuildersObey
    (varDb : Database Var)
    (iface : ProtocolInterface)
    (overrides : Overrides) : Prop :=
  ∀ (G : Type) (rng : Rng G) (engine : G),
    ValuesObey varDb iface
        (buildWithFields rng iface varDb engine).1 ∧
      ValuesObey varDb iface
        (buildWithOverrides rng iface varDb overrides engine).1

/-- Obedient builders show, under some outcome, every pickable value. -/
theorem BuildersObey.picksFit
    {varDb : Database Var}
    {iface : ProtocolInterface}
    {overrides : Overrides}
    (obey : BuildersObey varDb iface overrides)
    {name : String}
    {var : Var}
    (member : (name, var) ∈ layout varDb iface.varRefs) :
    var.PicksFit := by
  obtain ⟨index, atIndex⟩ := List.getElem?_of_mem member
  rw [Var.picksFit_iff]
  intro value pickable
  obtain ⟨answer, answered⟩ := exists_answer_of_pickable pickable
  obtain ⟨before, fieldAt⟩ :=
    drawFields_getElem?
      (fun _ var => pickValue (Rng.constant answer) var) atIndex ()
  have built := (obey Unit (Rng.constant answer) ()).1
  rw [buildWithFields_eq] at built
  obtain ⟨found, foundAt, -, fits⟩ :=
    built index name value (by
      simp [reported, fieldAt, answered])
  rw [atIndex, Option.some.injEq, Prod.mk.injEq] at foundAt
  rw [foundAt.2]
  exact fits

/-- Obedient builders show every override that reaches a free field. -/
theorem BuildersObey.acceptsOverride
    {varDb : Database Var}
    {iface : ProtocolInterface}
    {overrides : Overrides}
    (obey : BuildersObey varDb iface overrides)
    {name : String}
    {var : Var}
    (member : (name, var) ∈ layout varDb iface.varRefs)
    (unlisted : var.expectedValues = [])
    {value : UInt64}
    (overridden : overrides name = some value) :
    var.AcceptsOverride value := by
  obtain ⟨index, atIndex⟩ := List.getElem?_of_mem member
  obtain ⟨before, fieldAt⟩ :=
    drawFields_getElem?
      (overrideValue (Rng.constant 0) overrides) atIndex ()
  have built := (obey Unit (Rng.constant 0) ()).2
  rw [buildWithOverrides, buildLoop_eq] at built
  have chosen :
      (overrideValue (Rng.constant 0) overrides name var before).1 =
        var.masked value := by
    simp [overrideValue, unlisted, overridden, Var.masked]
  obtain ⟨found, foundAt, complies, fits⟩ :=
    built index name (var.masked value) (by
      simp [reported, fieldAt, chosen])
  rw [atIndex, Option.some.injEq, Prod.mk.injEq] at foundAt
  obtain ⟨-, rfl⟩ := foundAt
  exact .of_complies unlisted complies fits

/-- A pick for a narrow enough declaration is obedient. -/
theorem Var.PicksFit.pickValue
    {var : Var}
    (narrow : var.PicksFit)
    (rng : Rng G)
    (engine : G) :
    var.Complies (PacketBuilder.pickValue rng var engine).1 ∧
      var.Fits (PacketBuilder.pickValue rng var engine).1 := by
  have pickable := pickValue_pickable rng var engine
  exact ⟨pickable.complies, (var.picksFit_iff).mp narrow _ pickable⟩

/-- The value chosen in the override loop is obedient. -/
theorem Var.PicksFit.overrideValue
    {var : Var}
    (narrow : var.PicksFit)
    {name : String}
    {overrides : Overrides}
    (accepts :
      var.expectedValues = [] →
      ∀ value, overrides name = some value → var.AcceptsOverride value)
    (rng : Rng G)
    (engine : G) :
    var.Complies
        (PacketBuilder.overrideValue rng overrides name var engine).1 ∧
      var.Fits
        (PacketBuilder.overrideValue rng overrides name var
          engine).1 := by
  have picked := narrow.pickValue rng engine
  by_cases listed : var.expectedValues ≠ []
  · simpa [PacketBuilder.overrideValue, listed] using picked
  · have unlisted : var.expectedValues = [] := not_not.mp listed
    cases overridden : overrides name with
    | none =>
        simpa [PacketBuilder.overrideValue, unlisted, overridden]
          using picked
    | some override =>
        have accepted := accepts unlisted override overridden
        have chosen :
            (PacketBuilder.overrideValue rng overrides name var engine).1 =
              var.masked override := by
          simp [PacketBuilder.overrideValue, unlisted, overridden, Var.masked]
        rw [chosen]
        exact ⟨accepted.complies unlisted, accepted.2⟩

/--
The builders report obedient values under every random outcome exactly when
every declaration is narrow enough for its field and every override that
reaches a field without expected values is acceptable for it.
-/
theorem buildersObey_iff
    (varDb : Database Var)
    (iface : ProtocolInterface)
    (overrides : Overrides) :
    BuildersObey varDb iface overrides ↔
      ∀ entry ∈ layout varDb iface.varRefs,
        entry.2.PicksFit ∧
          (entry.2.expectedValues = [] →
            ∀ value, overrides entry.1 = some value →
              entry.2.AcceptsOverride value) := by
  constructor
  · rintro obey ⟨name, var⟩ member
    refine ⟨obey.picksFit member, ?_⟩
    intro unlisted value overridden
    exact obey.acceptsOverride member unlisted overridden
  · intro allowed G rng engine
    constructor
    · rw [buildWithFields_eq]
      intro index name value reportedAt
      obtain ⟨var, before, entryAt, rfl⟩ :=
        exists_choice_of_reported _ reportedAt
      have declared := allowed _ (List.mem_of_getElem? entryAt)
      exact ⟨var, entryAt, declared.1.pickValue rng before⟩
    · rw [buildWithOverrides, buildLoop_eq]
      intro index name value reportedAt
      obtain ⟨var, before, entryAt, rfl⟩ :=
        exists_choice_of_reported _ reportedAt
      have declared := allowed _ (List.mem_of_getElem? entryAt)
      exact ⟨var, entryAt,
        declared.1.overrideValue declared.2 rng before⟩

/-- A protocol document whose only field declares the range `[0, 37]`. -/
def descriptorDocument : Yaml :=
  .map [
    ("service", .scalar "acquire"),
    ("vars", .seq [
      .map [
        ("var", .scalar "descriptor_type"),
        ("size", .scalar "16"),
        ("expected", .map [
          ("range", .seq [.scalar "0", .scalar "37"])])]]),
    ("entities", .seq [
      .map [
        ("entity", .scalar "ACQUIRE"),
        ("interfaces", .seq [
          .map [
            ("interface", .scalar "ACQUIRE_IF"),
            ("dir", .scalar "in"),
            ("vars", .seq [
              .map [("var_ref", .scalar "descriptor_type")]])]])]])]

/--
An accepted protocol file whose interface, given an override of 1000 for its
ranged field, reports that value whatever the engine draws.
-/
theorem override_escapes_range :
    ¬ ∀ (isNumber : String → Bool) (roots : List Yaml) (session : Session),
        (∀ root ∈ roots, ProtocolValidator.Accepts root) →
        Protocol.parseProtocolFiles isNumber roots = .ok session →
        ∀ entry ∈ session.interfaceDb.entries,
          ∀ overrides : Overrides,
            BuildersObey session.varDb entry.2 overrides := by
  intro allObey
  have obey :=
    allObey (fun _ => false) [descriptorDocument] _
      (by decide) rfl _ (List.mem_singleton.mpr rfl)
      (fun name => if name = "descriptor_type" then some 1000 else none)
  obtain ⟨var, atFirst, complies, -⟩ :=
    (obey Unit (Rng.constant 0) ()).2 0 "descriptor_type" 1000 rfl
  have varShape :
      some ("descriptor_type",
        ({ name := "acquire::descriptor_type"
           size := 16
           expectedValues := []
           range := some { min := 0, max := 37 }
           mask := 0 } : Var)) = some ("descriptor_type", var) :=
    atFirst
  cases varShape
  exact absurd complies.2 (by decide)

end TsnGen
