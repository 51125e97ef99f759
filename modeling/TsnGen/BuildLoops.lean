import TsnGen.Chain
import TsnGen.LayerWindow

namespace TsnGen

open PacketBuilder

/-!
# The two build loops

Stage 0 of a chain is built by `buildWithFields` and every later one by
`buildWithOverrides`.  The loops differ in the choice of a value only, and the
choices differ only where an override answers for the name of a resolved
reference.  Away from such names the packet, its fields and the state of the
engine are the same; with any overrides names, order and length still are.
-/

/-- No override answers for the short name of a resolved reference. -/
def Overrides.Disjoint
    (overrides : Overrides)
    (iface : ProtocolInterface)
    (varDb : Database Var) : Prop :=
  ∀ ref ∈ iface.varRefs,
    (varDb.getElement ref).isSome = true →
      overrides (shortName ref) = none

/-- Disjoint overrides answer for no wire field. -/
theorem Overrides.Disjoint.of_mem_layout
    {overrides : Overrides}
    {iface : ProtocolInterface}
    {varDb : Database Var}
    (disjoint : overrides.Disjoint iface varDb)
    {entry : String × Var}
    (member : entry ∈ layout varDb iface.varRefs) :
    overrides entry.1 = none := by
  obtain ⟨ref, refMember, named, resolved, -⟩ := mem_layout_iff.mp member
  rw [← named]
  exact disjoint ref refMember (Option.isSome_iff_exists.mpr ⟨_, resolved⟩)

namespace PacketBuilder

/--
Without an override for its name a variable is chosen as in the plain loop.
-/
theorem overrideValue_of_none
    (rng : Rng G)
    {overrides : Overrides}
    {name : String}
    (absent : overrides name = none)
    (var : Var)
    (engine : G) :
    overrideValue rng overrides name var engine =
      pickValue rng var engine := by
  simp [overrideValue, absent]

/-- Choices that agree on the fields of a layout draw the same fields. -/
theorem drawFields_congr
    {first second : String → Var → G → UInt64 × G}
    {fields : List (String × Var)}
    (same :
      ∀ entry ∈ fields, ∀ engine,
        first entry.1 entry.2 engine = second entry.1 entry.2 engine)
    (engine : G) :
    drawFields first fields engine = drawFields second fields engine := by
  induction fields generalizing engine with
  | nil =>
      rfl
  | cons entry rest inductionHypothesis =>
      have sameHead := same entry List.mem_cons_self engine
      have sameRest :=
        inductionHypothesis
          (fun later member =>
            same later (List.mem_cons_of_mem entry member))
      simp only [drawFields, sameHead, sameRest]

/-- Names of the reported fields are those of the layout. -/
theorem names_buildLoop
    (choose : String → Var → G → UInt64 × G)
    (varDb : Database Var)
    (refs : List String)
    (engine : G) :
    (buildLoop choose varDb refs engine).1.fields.map Prod.fst =
      (layout varDb refs).map Prod.fst := by
  have shape :=
    congrArg (List.map Prod.fst)
      (shapeOf_drawFields choose (layout varDb refs) engine)
  simp only [shapeOf, List.map_map] at shape
  simp only [buildLoop_eq, reported, List.map_map]
  exact shape

/-- Disjoint overrides change neither the packet nor the engine. -/
theorem buildWithOverrides_of_disjoint
    {iface : ProtocolInterface}
    {varDb : Database Var}
    {overrides : Overrides}
    (disjoint : overrides.Disjoint iface varDb)
    (rng : Rng G)
    (engine : G) :
    buildWithOverrides rng iface varDb overrides engine =
      buildWithFields rng iface varDb engine := by
  have sameDraws :
      drawFields (overrideValue rng overrides)
          (layout varDb iface.varRefs) engine =
        drawFields (fun _ var => pickValue rng var)
          (layout varDb iface.varRefs) engine := by
    apply drawFields_congr
    intro entry member before
    exact overrideValue_of_none rng (disjoint.of_mem_layout member)
      entry.2 before
  simp only [buildWithOverrides, buildWithFields, buildLoop_eq, sameDraws]

/--
Where the override map is disjoint from the interface the two loops build the
same packet and leave the engine in the same state.  With any override map they
report the same names in the same order and produce as many bytes.
-/
theorem build_loops_agree
    (rng : Rng G)
    (iface : ProtocolInterface)
    (varDb : Database Var)
    (overrides : Overrides)
    (engine : G) :
    (overrides.Disjoint iface varDb →
        buildWithOverrides rng iface varDb overrides engine =
          buildWithFields rng iface varDb engine) ∧
      (buildWithOverrides rng iface varDb overrides engine).1.fields.map
          Prod.fst =
        (buildWithFields rng iface varDb engine).1.fields.map Prod.fst ∧
      (buildWithOverrides rng iface varDb overrides engine).1.bytes.length =
        (buildWithFields rng iface varDb engine).1.bytes.length := by
  refine ⟨?_, ?_, ?_⟩
  · intro disjoint
    exact buildWithOverrides_of_disjoint disjoint rng engine
  · simp only [buildWithOverrides, buildWithFields, names_buildLoop]
  · simp only [buildWithOverrides, buildWithFields, length_buildLoop]

/-- An override for another name does not show. -/
theorem build_loops_agree_other_name :
    buildWithOverrides (Rng.constant 5) soleInterface (soleVarDb 4)
        (fun name => if name = "y" then some 9 else none) () =
      buildWithFields (Rng.constant 5) soleInterface (soleVarDb 4) () := by
  refine (build_loops_agree (Rng.constant 5) soleInterface (soleVarDb 4)
    (fun name => if name = "y" then some 9 else none) ()).1 ?_
  intro ref member _
  have isRef : ref = "svc::x" := by
    simpa [soleInterface] using member
  subst isRef
  decide

end PacketBuilder

end TsnGen
