import Mathlib.Data.List.TakeWhile

namespace TsnGen

/-!
# From a file to the text of a document

Three readers hand the content of a file to the YAML parser.  The validator
copies it through a stream and the stack builder passes a mapping together with
its length.  The protocol loader passes a bare pointer into a mapping, so its
text ends at the first NUL byte that can be read there.

A mapping of a non-empty file holds the file's bytes, zero-filled up to the end
of the last page, and nothing can be read behind it.
-/

/-- The granularity at which files are mapped. -/
structure Paging where
  pageSize : Nat
  positive : 0 < pageSize

/-- What a call of `mmap` returns; a mapping carries its readable bytes. -/
inductive Mapping where
  | null
  | failed
  | mapped (readable : List UInt8)
  deriving Repr, DecidableEq

/-- A read through a pointer that leads to no readable byte. -/
inductive MemoryFault where
  | unreadable
  deriving Repr, DecidableEq

/-- Zero bytes between the end of a file and the end of its last page. -/
def Paging.padding
    (paging : Paging)
    (length : Nat) : Nat :=
  (paging.pageSize - length % paging.pageSize) % paging.pageSize

/-- Map the whole of a file; a length of zero is refused. -/
def Paging.mmap
    (paging : Paging)
    (content : List UInt8) : Mapping :=
  if content.length = 0 then
    .failed
  else
    .mapped
      (content ++ List.replicate (paging.padding content.length) 0)

/-- `csubstr(char*)`: the bytes in front of the first NUL. -/
def csubstr
    (readable : List UInt8) : Except MemoryFault (List UInt8) :=
  if 0 ∈ readable then
    .ok (readable.takeWhile fun byte => byte ≠ 0)
  else
    .error .unreadable

namespace Protocol

/--
The text `parseProtocolFile` parses; `none` where it returns before parsing.
Only a null pointer is taken for a failed call.
-/
def documentText
    (paging : Paging)
    (content : List UInt8) : Except MemoryFault (Option (List UInt8)) :=
  match paging.mmap content with
  | .null => return none
  | .failed => .error .unreadable
  | .mapped readable => do
      let text ← csubstr readable
      return some text

end Protocol

namespace StackBuilder

/-- The text `build` parses; `none` where it reports an invalid file. -/
def documentText
    (paging : Paging)
    (content : List UInt8) : Except MemoryFault (Option (List UInt8)) :=
  if content.length ≤ 0 then
    return none
  else
    match paging.mmap content with
    | .failed => return none
    | .null => .error .unreadable
    | .mapped readable => return some (readable.take content.length)

end StackBuilder

namespace ProtocolValidator

/-- The text `withRoot` parses: the stream is copied into a string. -/
def documentText
    (content : List UInt8) : List UInt8 :=
  content

end ProtocolValidator

/-- Only a file that ends on a page boundary is mapped without padding. -/
theorem Paging.padding_eq_zero_iff
    (paging : Paging)
    (length : Nat) :
    paging.padding length = 0 ↔ paging.pageSize ∣ length := by
  have inside : length % paging.pageSize < paging.pageSize :=
    Nat.mod_lt _ paging.positive
  rw [padding, Nat.dvd_iff_mod_eq_zero]
  by_cases aligned : length % paging.pageSize = 0
  · simp [aligned]
  · have smaller : paging.pageSize - length % paging.pageSize <
        paging.pageSize := by
      omega
    rw [Nat.mod_eq_of_lt smaller]
    omega

/-- A bare pointer leads to the whole file exactly when only padding is NUL. -/
theorem csubstr_eq_content_iff
    (content : List UInt8)
    (padding : Nat) :
    csubstr (content ++ List.replicate padding 0) = .ok content ↔
      0 ∉ content ∧ padding ≠ 0 := by
  unfold csubstr
  constructor
  · intro whole
    split at whole
    next terminated =>
      rw [Except.ok.injEq] at whole
      have clean : 0 ∉ content := by
        intro member
        rw [← whole] at member
        have nonzero := List.mem_takeWhile_imp member
        simp at nonzero
      refine ⟨clean, ?_⟩
      rintro rfl
      simp [clean] at terminated
    next => cases whole
  · rintro ⟨clean, padded⟩
    have terminated : 0 ∈ content ++ List.replicate padding 0 := by
      simp [padded]
    have kept : ∀ byte ∈ content, decide (byte ≠ 0) = true := by
      intro byte member
      rw [decide_eq_true_eq]
      rintro rfl
      exact clean member
    rw [if_pos terminated, List.takeWhile_append_of_pos kept]
    simp

/-- The protocol loader reads a file as it is if only padding is NUL. -/
theorem Protocol.documentText_eq_content_iff
    (paging : Paging)
    (content : List UInt8) :
    Protocol.documentText paging content = .ok (some content) ↔
      0 ∉ content ∧ ¬ paging.pageSize ∣ content.length := by
  by_cases empty : content = []
  · subst empty
    simp [Protocol.documentText, Paging.mmap]
  · have present : content.length ≠ 0 := by
      simpa using empty
    have loaded :
        Protocol.documentText paging content = .ok (some content) ↔
          csubstr
              (content ++
                List.replicate (paging.padding content.length) 0) =
            .ok content := by
      simp only [Protocol.documentText, Paging.mmap, present, ↓reduceIte]
      cases csubstr _ with
      | error fault =>
          simp [bind, Except.bind]
      | ok text =>
          simp [bind, Except.bind, pure, Except.pure]
    rw [loaded, csubstr_eq_content_iff, ne_eq, paging.padding_eq_zero_iff]

/-- The loader and the validator parse one text, the content of the file. -/
def ReadsWholeFile
    (paging : Paging)
    (content : List UInt8) : Prop :=
  Protocol.documentText paging content = .ok (some content) ∧
    ProtocolValidator.documentText content = content

instance
    (paging : Paging)
    (content : List UInt8) :
    Decidable (ReadsWholeFile paging content) :=
  inferInstanceAs (Decidable (_ ∧ _))

/--
The loader reads the text the validator reads exactly for files without a NUL
byte whose length is no multiple of the page size.
-/
theorem readsWholeFile_iff
    (paging : Paging)
    (content : List UInt8) :
    ReadsWholeFile paging content ↔
      0 ∉ content ∧ ¬ paging.pageSize ∣ content.length := by
  rw [ReadsWholeFile, Protocol.documentText_eq_content_iff]
  simp [ProtocolValidator.documentText]

/-- An empty file is read through the pointer of a failed mapping. -/
theorem empty_file_unreadable :
    ¬ ∀ (paging : Paging) (content : List UInt8),
        ReadsWholeFile paging content := by
  intro allRead
  have read := allRead { pageSize := 4096, positive := by decide } []
  exact absurd read (by decide)

end TsnGen
