import TsnGen.StackRuntime

namespace TsnGen

open BitBuffer PacketBuilder

/-!
# Bit positions of a frame

Which field a bit of a packed frame belongs to.  A frame is a list of rows, one
per layer, each packed to whole bytes; a row is a list of fields packed without
gaps.  Two frames of one layout can differ only inside fields that differ.
-/

/-- Bytes of a frame in front of one of its layers. -/
def bytesBefore
    (packet : StackedPacket)
    (index : Nat) : Nat :=
  ((packet.layers.take index).map fun layer => layer.2.bytes.length).sum

/-- Bytes of a frame behind one of its layers. -/
def bytesBehind
    (packet : StackedPacket)
    (index : Nat) : Nat :=
  ((packet.layers.drop (index + 1)).map fun layer =>
    layer.2.bytes.length).sum

/-- The wire bits of a field list are counted field by field. -/
theorem length_wireBits_eq
    (fields : List Field) :
    (wireBits fields).length =
      ((shapeOf fields).map fun entry => loopCount entry.2).sum := by
  simp [wireBits, shapeOf, List.length_flatMap, Function.comp_def]

/-- The bytes of a packed field list are fixed by its shape. -/
theorem length_packFields_eq
    (fields : List Field) :
    (packFields fields).length =
      (((shapeOf fields).map fun entry => loopCount entry.2).sum + 7) / 8 := by
  rw [(packFields_represents fields).length_eq, length_wireBits_eq]

/-- The bytes of a frame are fixed by the shapes of its layers. -/
theorem length_packRows_of_shapes
    {rows others : List (String × List Field)}
    (sameShapes :
      rows.map (fun row => shapeOf row.2) =
        others.map fun row => shapeOf row.2) :
    (packRows rows).bytes.length = (packRows others).bytes.length := by
  have sizes :=
    congrArg
      (List.map fun shape : List (String × UInt32) =>
        ((shape.map fun entry => loopCount entry.2).sum + 7) / 8)
      sameShapes
  simp only [List.map_map, Function.comp_def,
    ← length_packFields_eq] at sizes
  simp only [packRows, List.length_flatMap, sizes]

/-- The bits of one field inside its packed layer. -/
theorem getBit_packFields
    {before after : List Field}
    {field : Field}
    {position : Nat}
    (inside : position < loopCount field.bits) :
    getBit (packFields (before ++ field :: after))
        ((wireBits before).length + position) =
      field.value.toNat.testBit (loopCount field.bits - 1 - position) := by
  have split :
      wireBits (before ++ field :: after) =
        wireBits before ++
          (msbBits field.value.toNat (loopCount field.bits) ++
            wireBits after) := by
    simp [wireBits]
  have insideField :
      position <
        (msbBits field.value.toNat (loopCount field.bits)).length := by
    simpa using inside
  rw [(packFields_represents _).getBit_eq, split,
    List.getElem?_append_right (Nat.le_add_right _ _),
    Nat.add_sub_cancel_left, List.getElem?_append_left insideField,
    getElem?_msbBits]
  simp [inside]

/-- A frame is its layers in front, the layer itself and those behind. -/
theorem packRows_bytes_split
    {rows : List (String × List Field)}
    {index : Nat}
    {row : String × List Field}
    (rowAt : rows[index]? = some row) :
    ∃ front back : List UInt8,
      (packRows rows).bytes = front ++ (packFields row.2 ++ back) ∧
        front.length = bytesBefore (packRows rows) index ∧
          back.length = bytesBehind (packRows rows) index := by
  obtain ⟨inside, isRow⟩ := List.getElem?_eq_some_iff.mp rowAt
  have split : rows = rows.take index ++ row :: rows.drop (index + 1) := by
    rw [← isRow, List.getElem_cons_drop, List.take_append_drop]
  refine ⟨(packRows (rows.take index)).bytes,
    (packRows (rows.drop (index + 1))).bytes, ?_, ?_, ?_⟩
  · conv =>
      lhs
      rw [split]
    simp [packRows]
  · simp [packRows, bytesBefore, List.length_flatMap, Function.comp_def]
  · simp [packRows, bytesBehind, List.length_flatMap, Function.comp_def]

/-- The bits of one layer inside its frame. -/
theorem getBit_packRows
    {rows : List (String × List Field)}
    {index : Nat}
    {row : String × List Field}
    (rowAt : rows[index]? = some row)
    {position : Nat}
    (inside : position < 8 * (packFields row.2).length) :
    getBit (packRows rows).bytes
        (8 * bytesBefore (packRows rows) index + position) =
      getBit (packFields row.2) position := by
  obtain ⟨front, back, split, frontLength, _⟩ := packRows_bytes_split rowAt
  rw [split, ← frontLength, getBit_append_right,
    getBit_append_left back inside]

/-- Wire bits of one shape differ only inside a differing field. -/
private theorem differing_wireBit
    {fields others : List Field}
    (sameShape : shapeOf fields = shapeOf others)
    {position : Nat}
    (differs :
      (wireBits fields)[position]?.getD false ≠
        (wireBits others)[position]?.getD false) :
    ∃ (before : List Field) (field : Field) (after : List Field),
      fields = before ++ field :: after ∧
        others[before.length]? ≠ some field ∧
          (wireBits before).length ≤ position ∧
            position < (wireBits before).length + loopCount field.bits := by
  induction fields generalizing others position with
  | nil =>
      have nothing : others = [] := by
        simpa [shapeOf] using sameShape.symm
      simp [nothing] at differs
  | cons field rest inductionHypothesis =>
      cases others with
      | nil =>
          simp [shapeOf] at sameShape
      | cons other otherRest =>
          simp only [shapeOf, List.map_cons, List.cons.injEq,
            Prod.mk.injEq] at sameShape
          obtain ⟨⟨sameName, sameBits⟩, sameRest⟩ := sameShape
          by_cases inHead : position < loopCount field.bits
          · refine ⟨[], field, rest, rfl, ?_, by simp [wireBits], ?_⟩
            · intro same
              simp only [List.length_nil, List.getElem?_cons_zero,
                Option.some.injEq] at same
              apply differs
              subst same
              have insideHead :
                  position <
                    (msbBits other.value.toNat
                      (loopCount other.bits)).length := by
                simpa using inHead
              simp only [wireBits, List.flatMap_cons]
              rw [List.getElem?_append_left insideHead,
                List.getElem?_append_left insideHead]
            · simpa [wireBits] using inHead
          · have headLength :
                ∀ candidate : Field,
                  candidate.bits = field.bits →
                  (msbBits candidate.value.toNat
                    (loopCount candidate.bits)).length ≤ position := by
              intro candidate same
              simp only [length_msbBits, same]
              omega
            have inRest :
                (wireBits rest)[position - loopCount field.bits]?.getD
                    false ≠
                  (wireBits otherRest)[position -
                    loopCount field.bits]?.getD false := by
              simp only [wireBits, List.flatMap_cons] at differs
              rw [List.getElem?_append_right (headLength field rfl),
                List.getElem?_append_right
                  (headLength other sameBits.symm)] at differs
              simpa [wireBits, sameBits] using differs
            obtain ⟨before, found, after, split, different, low, high⟩ :=
              inductionHypothesis sameRest inRest
            refine ⟨field :: before, found, after, by simp [split],
              by simpa using different, ?_, ?_⟩
            · simp only [wireBits, List.flatMap_cons, List.length_append,
                length_msbBits] at low ⊢
              omega
            · simp only [wireBits, List.flatMap_cons, List.length_append,
                length_msbBits] at high ⊢
              omega

/-- Packed layers of one shape differ only inside a differing field. -/
theorem differing_field
    {fields others : List Field}
    (sameShape : shapeOf fields = shapeOf others)
    {position : Nat}
    (differs :
      getBit (packFields fields) position ≠
        getBit (packFields others) position) :
    ∃ (before : List Field) (field : Field) (after : List Field),
      fields = before ++ field :: after ∧
        others[before.length]? ≠ some field ∧
          (wireBits before).length ≤ position ∧
            position < (wireBits before).length + loopCount field.bits := by
  rw [(packFields_represents fields).getBit_eq,
    (packFields_represents others).getBit_eq] at differs
  exact differing_wireBit sameShape differs

/-- Frames of one layout differ only inside a differing layer. -/
theorem differing_row
    {rows others : List (String × List Field)}
    (sameShapes :
      rows.map (fun row => shapeOf row.2) =
        others.map fun row => shapeOf row.2)
    {position : Nat}
    (differs :
      getBit (packRows rows).bytes position ≠
        getBit (packRows others).bytes position) :
    ∃ (index offset : Nat) (row other : String × List Field),
      rows[index]? = some row ∧
        others[index]? = some other ∧
          position = 8 * bytesBefore (packRows rows) index + offset ∧
            getBit (packFields row.2) offset ≠
              getBit (packFields other.2) offset := by
  induction rows generalizing others position with
  | nil =>
      have nothing : others = [] := by
        simpa using sameShapes.symm
      simp [nothing] at differs
  | cons row rest inductionHypothesis =>
      cases others with
      | nil =>
          simp at sameShapes
      | cons other otherRest =>
          simp only [List.map_cons, List.cons.injEq] at sameShapes
          obtain ⟨sameShape, sameRest⟩ := sameShapes
          have sameLength :
              (packFields row.2).length = (packFields other.2).length := by
            rw [length_packFields_eq, length_packFields_eq, sameShape]
          simp only [packRows, List.flatMap_cons] at differs
          by_cases inHead : position < 8 * (packFields row.2).length
          · rw [getBit_append_left _ inHead,
              getBit_append_left _ (sameLength ▸ inHead)] at differs
            exact ⟨0, position, row, other, rfl, rfl,
              by simp [bytesBefore], differs⟩
          · obtain ⟨later, rfl⟩ :=
              Nat.exists_eq_add_of_le (Nat.not_lt.mp inHead)
            rw [getBit_append_right, sameLength,
              getBit_append_right] at differs
            obtain ⟨index, offset, found, otherFound, foundAt, otherAt,
              place, foundDiffers⟩ := inductionHypothesis sameRest differs
            refine ⟨index + 1, offset, found, otherFound, foundAt, otherAt,
              ?_, foundDiffers⟩
            rw [place]
            simp [bytesBefore, packRows]
            omega

end TsnGen
