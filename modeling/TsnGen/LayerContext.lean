import TsnGen.PacketDecoder

namespace TsnGen

/-!
# Layer contexts

A `LayerContext` owns the ordered fields of one layer while a frame is encoded
or decoded.  Logic modules read and write fields by short name, always the
first field of that name, and reach the layers above through `upper`.

A context pointer is the index of the layer it points to, and the memory behind
pointers is the list of all contexts of a stack.
-/

/-- Runtime context of one layer. -/
structure LayerContext where
  serviceName : String
  upper : Option Nat
  lower : Option Nat
  fields : List Field
  deriving Repr, DecidableEq

/-- Value of the first field of a name. -/
def readFirst
    (name : String) :
    List Field → Option UInt64
  | [] => none
  | field :: rest =>
      if field.name = name then some field.value else readFirst name rest

/-- Overwrite the first field of a name; `false` when there is none. -/
def writeFirst
    (name : String)
    (value : UInt64) :
    List Field → Bool × List Field
  | [] => (false, [])
  | field :: rest =>
      if field.name = name then
        (true, { field with value := value } :: rest)
      else
        let later := writeFirst name value rest
        (later.1, field :: later.2)

namespace LayerContext

/-- The context a layer is built with. -/
def new
    (serviceName : String) : LayerContext where
  serviceName := serviceName
  upper := none
  lower := none
  fields := []

/-- Append a field in wire order. -/
def addField
    (ctx : LayerContext)
    (name : String)
    (value : UInt64)
    (bits : UInt32) : LayerContext :=
  { ctx with
    fields := ctx.fields ++ [{ name := name, value := value, bits := bits }] }

/-- Drop all fields. -/
def clearFields
    (ctx : LayerContext) : LayerContext :=
  { ctx with fields := [] }

/-- Read a field value by short name. -/
def getValue
    (ctx : LayerContext)
    (name : String) : Option UInt64 :=
  readFirst name ctx.fields

/-- Write a field value by short name; only existing fields are written. -/
def setValue
    (ctx : LayerContext)
    (name : String)
    (value : UInt64) : Bool × LayerContext :=
  let written := writeFirst name value ctx.fields
  (written.1, { ctx with fields := written.2 })

/-- Total bytes of this layer on the wire, its bits padded up. -/
def byteSize
    (ctx : LayerContext) : Nat :=
  let bits := ctx.fields.foldl (fun bits field => bits + field.bits.toNat) 0
  (bits + 7) / 8

/-- Loop state of `bytesAfter`: the bits counted once the name was seen. -/
def bytesAfterStep
    (name : String)
    (state : Nat × Bool)
    (field : Field) : Nat × Bool :=
  if state.2 then
    (state.1 + field.bits.toNat, state.2)
  else if field.name = name then
    (state.1, true)
  else
    state

/-- Bytes of the fields strictly after the first field of a name. -/
def bytesAfter
    (ctx : LayerContext)
    (name : String) : Option Nat :=
  let final := ctx.fields.foldl (bytesAfterStep name) (0, false)
  if final.2 then some ((final.1 + 7) / 8) else none

/-- The context a pointer refers to. -/
def deref
    (contexts : List LayerContext)
    (pointer : Option Nat) : Option LayerContext :=
  pointer.bind fun index => contexts[index]?

/-- Follow `upper` pointers, adding up sizes, for at most `fuel` contexts. -/
def sumUpwards
    (contexts : List LayerContext) :
    Nat → Option Nat → Nat
  | 0, _ => 0
  | fuel + 1, pointer =>
      match deref contexts pointer with
      | none => 0
      | some above =>
          above.byteSize + sumUpwards contexts fuel above.upper

/--
Total bytes of every layer stacked above this one.  No chain of distinct
contexts is longer than the memory holds.
-/
def bytesAbove
    (contexts : List LayerContext)
    (ctx : LayerContext) : Nat :=
  sumUpwards contexts contexts.length ctx.upper

/-- A context with its field values forgotten. -/
def outline
    (ctx : LayerContext) : LayerContext :=
  { ctx with
    fields := ctx.fields.map fun field => { field with value := 0 } }

end LayerContext

/-- Writing a field keeps all names and widths. -/
@[simp] theorem shapeOf_writeFirst
    (name : String)
    (value : UInt64)
    (fields : List Field) :
    shapeOf (writeFirst name value fields).2 = shapeOf fields := by
  induction fields with
  | nil =>
      rfl
  | cons field rest inductionHypothesis =>
      simp only [shapeOf] at inductionHypothesis
      by_cases named : field.name = name
      · simp [writeFirst, named, shapeOf]
      · simp [writeFirst, named, shapeOf, inductionHypothesis]

/-- Reading a name after a write to it finds the new value, if anything. -/
theorem readFirst_writeFirst_self
    (name : String)
    (value : UInt64)
    (fields : List Field) :
    readFirst name (writeFirst name value fields).2 =
      (readFirst name fields).map fun _ => value := by
  induction fields with
  | nil =>
      rfl
  | cons field rest inductionHypothesis =>
      by_cases named : field.name = name
      · simp [writeFirst, readFirst, named]
      · simp [writeFirst, readFirst, named, inductionHypothesis]

/-- Reading another name is not affected by a write. -/
theorem readFirst_writeFirst_of_ne
    {name other : String}
    (different : other ≠ name)
    (value : UInt64)
    (fields : List Field) :
    readFirst other (writeFirst name value fields).2 =
      readFirst other fields := by
  induction fields with
  | nil =>
      rfl
  | cons field rest inductionHypothesis =>
      by_cases named : field.name = name
      · simp [writeFirst, readFirst, named, different.symm]
      · by_cases otherNamed : field.name = other
        · rw [writeFirst, if_neg named]
          simp only [readFirst, if_pos otherNamed]
        · simp [writeFirst, readFirst, named, otherNamed,
            inductionHypothesis]

/-- Writing the value that is already there changes nothing. -/
theorem writeFirst_eq_self
    {name : String}
    {value : UInt64}
    {fields : List Field}
    (settled : ∀ current ∈ readFirst name fields, current = value) :
    (writeFirst name value fields).2 = fields := by
  induction fields with
  | nil =>
      rfl
  | cons field rest inductionHypothesis =>
      by_cases named : field.name = name
      · have same : field.value = value :=
          settled field.value (by simp [readFirst, named])
        rw [writeFirst, if_pos named, ← same]
      · simp only [readFirst, named, ↓reduceIte] at settled
        simp [writeFirst, named, inductionHypothesis settled]

/-- A sequence of writes by name. -/
def writeAll
    (writes : List (String × UInt64))
    (fields : List Field) : List Field :=
  writes.foldl (fun fields write => (writeFirst write.1 write.2 fields).2) fields

@[simp] theorem shapeOf_writeAll
    (writes : List (String × UInt64))
    (fields : List Field) :
    shapeOf (writeAll writes fields) = shapeOf fields := by
  induction writes generalizing fields with
  | nil =>
      rfl
  | cons write rest inductionHypothesis =>
      rw [writeAll, List.foldl_cons, ← writeAll, inductionHypothesis,
        shapeOf_writeFirst]

/-- Names outside a write sequence keep their values. -/
theorem readFirst_writeAll_of_not_mem
    {writes : List (String × UInt64)}
    {name : String}
    (absent : name ∉ writes.map Prod.fst)
    (fields : List Field) :
    readFirst name (writeAll writes fields) = readFirst name fields := by
  induction writes generalizing fields with
  | nil =>
      rfl
  | cons write rest inductionHypothesis =>
      simp only [List.map_cons, List.mem_cons, not_or] at absent
      rw [writeAll, List.foldl_cons, ← writeAll,
        inductionHypothesis absent.2, readFirst_writeFirst_of_ne absent.1]

/-- A name written once holds the written value afterwards, if it exists. -/
theorem readFirst_writeAll_of_mem
    {writes : List (String × UInt64)}
    (distinct : (writes.map Prod.fst).Nodup)
    {name : String}
    {value : UInt64}
    (member : (name, value) ∈ writes)
    (fields : List Field) :
    readFirst name (writeAll writes fields) =
      (readFirst name fields).map fun _ => value := by
  induction writes generalizing fields with
  | nil =>
      simp at member
  | cons write rest inductionHypothesis =>
      simp only [List.map_cons, List.nodup_cons] at distinct
      rw [writeAll, List.foldl_cons, ← writeAll]
      rcases List.mem_cons.mp member with isHead | inRest
      · subst isHead
        rw [readFirst_writeAll_of_not_mem distinct.1,
          readFirst_writeFirst_self]
      · have different : name ≠ write.1 := by
          rintro rfl
          exact distinct.1 (List.mem_map.mpr ⟨_, inRest, rfl⟩)
        rw [inductionHypothesis distinct.2 inRest,
          readFirst_writeFirst_of_ne different]

/-- Writes of values that are already there change nothing. -/
theorem writeAll_eq_self
    {writes : List (String × UInt64)}
    {fields : List Field}
    (settled :
      ∀ write ∈ writes,
        ∀ current ∈ readFirst write.1 fields, current = write.2) :
    writeAll writes fields = fields := by
  induction writes with
  | nil =>
      rfl
  | cons write rest inductionHypothesis =>
      rw [writeAll, List.foldl_cons, ← writeAll,
        writeFirst_eq_self (settled write (by simp)),
        inductionHypothesis (fun later member =>
          settled later (by simp [member]))]

/-- A write sequence without repeated names is idempotent. -/
theorem writeAll_writeAll
    {writes : List (String × UInt64)}
    (distinct : (writes.map Prod.fst).Nodup)
    (fields : List Field) :
    writeAll writes (writeAll writes fields) = writeAll writes fields := by
  apply writeAll_eq_self
  intro write member current found
  rw [readFirst_writeAll_of_mem distinct member] at found
  obtain ⟨_, _, same⟩ := Option.map_eq_some_iff.mp found
  exact same.symm

/-- A write by name reaches no field but the first one of that name. -/
theorem getElem?_writeFirst
    {name : String}
    {value : UInt64}
    {fields : List Field}
    {index : Nat}
    {field : Field}
    (fieldAt : fields[index]? = some field)
    (kept :
      field.name ≠ name ∨
        ∃ earlier ∈ fields.take index, earlier.name = field.name) :
    (writeFirst name value fields).2[index]? = some field := by
  induction fields generalizing index with
  | nil =>
      simp at fieldAt
  | cons head rest inductionHypothesis =>
      by_cases named : head.name = name
      · cases index with
        | zero =>
            simp only [List.getElem?_cons_zero, Option.some.injEq] at fieldAt
            subst fieldAt
            rcases kept with different | ⟨earlier, member, _⟩
            · exact absurd named different
            · simp at member
        | succ index =>
            simpa [writeFirst, named] using fieldAt
      · cases index with
        | zero =>
            simpa [writeFirst, named] using fieldAt
        | succ index =>
            rw [List.getElem?_cons_succ] at fieldAt
            have keptLater :
                field.name ≠ name ∨
                  ∃ earlier ∈ rest.take index,
                    earlier.name = field.name := by
              rcases kept with different | ⟨earlier, member, same⟩
              · exact Or.inl different
              · rw [List.take_succ_cons, List.mem_cons] at member
                rcases member with isHead | inRest
                · subst isHead
                  exact Or.inl (same ▸ named)
                · exact Or.inr ⟨earlier, inRest, same⟩
            simpa [writeFirst, named] using
              inductionHypothesis fieldAt keptLater

/-- The names standing before an index are fixed by the shape. -/
theorem exists_earlier_of_shape
    {fields others : List Field}
    (sameShape : shapeOf fields = shapeOf others)
    {index : Nat}
    {name : String}
    (earlier : ∃ field ∈ fields.take index, field.name = name) :
    ∃ field ∈ others.take index, field.name = name := by
  have names :
      (fields.take index).map Field.name =
        (others.take index).map Field.name := by
    have byShape :
        ∀ list : List Field,
          (list.take index).map Field.name =
            ((shapeOf list).take index).map Prod.fst := by
      intro list
      simp [shapeOf, Function.comp_def]
    rw [byShape, byShape, sameShape]
  obtain ⟨field, member, named⟩ := earlier
  have inOthers : name ∈ (others.take index).map Field.name := by
    rw [← names, ← named]
    exact List.mem_map_of_mem member
  obtain ⟨other, otherMember, otherNamed⟩ := List.mem_map.mp inOthers
  exact ⟨other, otherMember, otherNamed⟩

/-- A write sequence reaches only first fields of the names it writes. -/
theorem getElem?_writeAll
    {writes : List (String × UInt64)}
    {fields : List Field}
    {index : Nat}
    {field : Field}
    (fieldAt : fields[index]? = some field)
    (kept :
      field.name ∉ writes.map Prod.fst ∨
        ∃ earlier ∈ fields.take index, earlier.name = field.name) :
    (writeAll writes fields)[index]? = some field := by
  induction writes generalizing fields with
  | nil =>
      exact fieldAt
  | cons write rest inductionHypothesis =>
      rw [writeAll, List.foldl_cons, ← writeAll]
      apply inductionHypothesis
      · apply getElem?_writeFirst fieldAt
        rcases kept with absent | earlier
        · exact Or.inl fun same => absent (by simp [same])
        · exact Or.inr earlier
      · rcases kept with absent | earlier
        · exact Or.inl fun member => absent (by simp [member])
        · exact Or.inr
            (exists_earlier_of_shape
              (shapeOf_writeFirst write.1 write.2 fields).symm earlier)

namespace LayerContext

/-- The size of a layer is that of its shape. -/
theorem byteSize_eq
    (ctx : LayerContext) :
    ctx.byteSize = (PacketDecoder.shapeBits (shapeOf ctx.fields) + 7) / 8 := by
  have general :
      ∀ (fields : List Field) (bits : Nat),
        fields.foldl (fun bits field => bits + field.bits.toNat) bits =
          bits + PacketDecoder.shapeBits (shapeOf fields) := by
    intro fields
    induction fields with
    | nil =>
        intro bits
        rfl
    | cons field rest inductionHypothesis =>
        intro bits
        rw [List.foldl_cons, inductionHypothesis]
        simp [PacketDecoder.shapeBits, shapeOf, Nat.add_assoc]
  simp [byteSize, general]

/-- What `bytesAfter` counts once the name was seen. -/
private theorem bytesAfterStep_seen
    (name : String)
    (fields : List Field)
    (bits : Nat) :
    fields.foldl (bytesAfterStep name) (bits, true) =
      (bits + PacketDecoder.shapeBits (shapeOf fields), true) := by
  induction fields generalizing bits with
  | nil =>
      rfl
  | cons field rest inductionHypothesis =>
      rw [List.foldl_cons, bytesAfterStep, if_pos rfl, inductionHypothesis]
      simp [PacketDecoder.shapeBits, shapeOf, Nat.add_assoc]

/-- Fields of other names are passed over. -/
private theorem bytesAfterStep_unseen
    {name : String}
    {fields : List Field}
    (absent : ∀ field ∈ fields, field.name ≠ name) :
    fields.foldl (bytesAfterStep name) (0, false) = (0, false) := by
  induction fields with
  | nil =>
      rfl
  | cons field rest inductionHypothesis =>
      rw [List.foldl_cons, bytesAfterStep]
      simp only [Bool.false_eq_true, ↓reduceIte,
        absent field (by simp)]
      exact inductionHypothesis fun later member =>
        absent later (by simp [member])

/-- The bits behind the first field of the name are padded up. -/
theorem bytesAfter_eq_some
    (ctx : LayerContext)
    {name : String}
    {before after : List Field}
    {field : Field}
    (shape : ctx.fields = before ++ field :: after)
    (named : field.name = name)
    (first : ∀ earlier ∈ before, earlier.name ≠ name) :
    ctx.bytesAfter name =
      some ((PacketDecoder.shapeBits (shapeOf after) + 7) / 8) := by
  have counted :
      ctx.fields.foldl (bytesAfterStep name) (0, false) =
        (PacketDecoder.shapeBits (shapeOf after), true) := by
    rw [shape, List.foldl_append, bytesAfterStep_unseen first,
      List.foldl_cons, bytesAfterStep]
    simp [named, bytesAfterStep_seen]
  simp [bytesAfter, counted]

/-- What `bytesAfter` counts is fixed by names and widths. -/
theorem bytesAfter_of_shape
    (ctx : LayerContext)
    {fields : List Field}
    (sameShape : shapeOf fields = shapeOf ctx.fields)
    (name : String) :
    bytesAfter { ctx with fields := fields } name =
      ctx.bytesAfter name := by
  have general :
      ∀ (fields : List Field) (state : Nat × Bool),
        fields.foldl (bytesAfterStep name) state =
          (shapeOf fields).foldl
            (fun state entry =>
              bytesAfterStep name state
                { name := entry.1, value := 0, bits := entry.2 })
            state := by
    intro fields
    induction fields with
    | nil =>
        intro state
        rfl
    | cons field rest inductionHypothesis =>
        intro state
        rw [List.foldl_cons, inductionHypothesis]
        rfl
  rw [bytesAfter, bytesAfter, general, general, sameShape]

/-- An outline is fixed by names, widths and links. -/
theorem outline_of_shape
    (ctx : LayerContext)
    {fields : List Field}
    (sameShape : shapeOf fields = shapeOf ctx.fields) :
    outline { ctx with fields := fields } = outline ctx := by
  have byShape :
      ∀ list : List Field,
        (list.map fun field => { field with value := 0 }) =
          (shapeOf list).map fun entry =>
            ({ name := entry.1, value := 0, bits := entry.2 } : Field) := by
    intro list
    simp [shapeOf]
  simp only [outline, byShape, sameShape]

@[simp] theorem shapeOf_outline
    (ctx : LayerContext) :
    shapeOf ctx.outline.fields = shapeOf ctx.fields := by
  simp [outline, shapeOf]

/-- Pointers lead to the outlines of what they led to. -/
theorem deref_map_outline
    (contexts : List LayerContext)
    (pointer : Option Nat) :
    deref (contexts.map outline) pointer =
      (deref contexts pointer).map outline := by
  cases pointer with
  | none =>
      rfl
  | some index =>
      simp [deref]

/-- Sizes above a layer can be read off the outlines. -/
theorem bytesAbove_map_outline
    (contexts : List LayerContext)
    (ctx : LayerContext) :
    ctx.bytesAbove (contexts.map outline) = ctx.bytesAbove contexts := by
  have general :
      ∀ (fuel : Nat) (pointer : Option Nat),
        sumUpwards (contexts.map outline) fuel pointer =
          sumUpwards contexts fuel pointer := by
    intro fuel
    induction fuel with
    | zero =>
        intro pointer
        rfl
    | succ fuel inductionHypothesis =>
        intro pointer
        simp only [sumUpwards, deref_map_outline]
        cases deref contexts pointer with
        | none =>
            rfl
        | some above =>
            simp only [Option.map_some, byteSize_eq, shapeOf_outline,
              inductionHypothesis]
            rfl
  simp [bytesAbove, general]

end LayerContext

end TsnGen
