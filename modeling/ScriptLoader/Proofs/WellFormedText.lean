import ScriptLoader.Proofs.ByteTexts

/-!
Well-formed byte strings. The test for them accepts exactly what characters are written as, and a slash parts
a well-formed byte string into well-formed ones, so that a path is well formed if and only if its names are.
-/

set_option autoImplicit false
namespace ScriptLoader.Text.Utf8

theorem isWellFormed_nil : isWellFormed [] = true := by
  rw [isWellFormed]

theorem isWellFormed_sequence {sequence : List UInt8} {n : Nat} (whole : Sequence sequence n) (rest : List UInt8) :
    isWellFormed (sequence ++ rest) = isWellFormed rest := by
  have found := whole.read? rest
  cases front : sequence ++ rest with
  | nil => rw [front] at found; cases found
  | cons first more =>
    rw [front] at found
    rw [isWellFormed]
    split
    next same => rw [(Prod.mk.inj (Option.some.inj (found.symm.trans same))).2]
    next same => cases found.symm.trans same

theorem isWellFormed_written (chars : List Char) : isWellFormed (chars.flatMap String.utf8EncodeChar) = true := by
  induction chars with
  | nil => exact isWellFormed_nil
  | cons c rest ih => rw [List.flatMap_cons, isWellFormed_sequence (sequence_utf8EncodeChar c), ih]

theorem exists_written {bytes : List UInt8} (wellFormed : isWellFormed bytes = true) :
    ∃ chars : List Char, bytes = chars.flatMap String.utf8EncodeChar := by
  induction size : bytes.length using Nat.strong_induction_on generalizing bytes with
  | _ _ ih =>
  cases bytes with
  | nil => exact ⟨[], rfl⟩
  | cons first more =>
    rw [isWellFormed] at wellFormed
    split at wellFormed
    next rest found =>
      obtain ⟨sequence, n, whole, bytes, -⟩ := sequence_of_read? found
      obtain ⟨chars, written⟩ := ih rest.length (size ▸ length_lt_of_read? found) wellFormed rfl
      exact ⟨Char.ofNat n :: chars, by rw [bytes, List.flatMap_cons, ← whole.eq_utf8EncodeChar, written]⟩
    next => cases wellFormed

/-- A byte string is well formed if and only if it is what some characters are written as. -/
theorem isWellFormed_iff {bytes : List UInt8} : isWellFormed bytes = true ↔ bytes.toByteArray.IsValidUTF8 := by
  constructor
  · intro wellFormed
    obtain ⟨chars, rfl⟩ := exists_written wellFormed
    exact ⟨chars, rfl⟩
  · rintro ⟨chars, written⟩
    have written : bytes.toByteArray.data = chars.utf8Encode.data := congrArg ByteArray.data written
    rw [List.utf8Encode, List.data_toByteArray, List.data_toByteArray] at written
    rw [List.toArray_inj written]
    exact isWellFormed_written chars

/-- A byte of ASCII is a character by itself, so that well-formed bytes stand on both sides of it. -/
theorem isWellFormed_append_cons (bytes : List UInt8) {b : UInt8} (small : b.toNat < 0x80) (rest : List UInt8) :
    isWellFormed (bytes ++ b :: rest) = true ↔ isWellFormed bytes = true ∧ isWellFormed rest = true := by
  have alone : isWellFormed (b :: rest) = isWellFormed rest := isWellFormed_sequence (.one small) rest
  constructor
  · intro wellFormed
    obtain ⟨chars, written⟩ := exists_written wellFormed
    clear wellFormed
    induction chars generalizing bytes with
    | nil => simp at written
    | cons c others ih =>
      cases bytes with
      | nil =>
        rw [← alone, ← List.nil_append (b :: rest), written]
        exact ⟨isWellFormed_nil, isWellFormed_written _⟩
      | cons first more =>
        rw [List.flatMap_cons] at written
        rcases List.append_eq_append_iff.mp written with ⟨after, longer, tail⟩ | ⟨after, shorter, tail⟩
        · cases after with
          | nil =>
            rw [List.append_nil] at longer
            rw [← alone, tail, ← longer, ← List.append_nil (String.utf8EncodeChar c),
              isWellFormed_sequence (sequence_utf8EncodeChar c)]
            exact ⟨isWellFormed_nil, isWellFormed_written _⟩
          | cons next later =>
            -- A character that went on to the small byte would have it among its later bytes.
            obtain ⟨rfl, -⟩ := List.cons.inj tail
            have whole := sequence_utf8EncodeChar c
            rw [longer] at whole
            exact absurd (whole.high b (by simp)) (Nat.not_le.mpr small)
        · obtain ⟨before, behind⟩ := ih after tail.symm
          rw [shorter, isWellFormed_sequence (sequence_utf8EncodeChar c)]
          exact ⟨before, behind⟩
  · rintro ⟨before, after⟩
    obtain ⟨chars, rfl⟩ := exists_written before
    clear before
    induction chars with
    | nil => rw [List.flatMap_nil, List.nil_append, alone, after]
    | cons c others ih =>
      rw [List.flatMap_cons, List.append_assoc, isWellFormed_sequence (sequence_utf8EncodeChar c), ih]

theorem isWellFormed_intercalate {names : List String}
    (wellFormed : ∀ name ∈ names, isWellFormed (encode name) = true) :
    isWellFormed (encode (String.intercalate "/" names)) = true := by
  induction names with
  | nil => exact isWellFormed_nil
  | cons name rest ih =>
    obtain ⟨first, others⟩ := List.forall_mem_cons.mp wellFormed
    by_cases alone : rest = []
    · rw [alone, String.intercalate_singleton]
      exact first
    · rw [String.intercalate_cons_of_ne_nil alone, encode_append_slash]
      exact (isWellFormed_append_cons _ (by decide) _).mpr ⟨first, ih others⟩

theorem isWellFormed_of_mem_split {bytes piece : List UInt8} (wellFormed : isWellFormed bytes = true)
    (mem : piece ∈ split 0x2F bytes) : isWellFormed piece = true := by
  induction size : bytes.length using Nat.strong_induction_on generalizing bytes with
  | _ _ ih =>
  by_cases slash : 0x2F ∈ bytes
  · obtain ⟨before, after, rfl, absent⟩ := List.eq_append_cons_of_mem slash
    obtain ⟨first, others⟩ := (isWellFormed_append_cons before (by decide) after).mp wellFormed
    rw [split_append absent] at mem
    rcases List.mem_cons.mp mem with rfl | later
    · exact first
    · exact ih after.length (by simp [← size]; omega) others later rfl
  · rw [split_of_not_mem slash] at mem
    exact List.mem_singleton.mp mem ▸ wellFormed

theorem isWellFormed_of_mem_pieces {path name : String} (readable : Readable path)
    (wellFormed : isWellFormed (encode path) = true) (mem : name ∈ pieces path '/') :
    isWellFormed (encode name) = true := by
  rw [← readable, pieces_decode] at mem
  obtain ⟨piece, part, rfl⟩ := List.mem_map.mp mem
  rw [encode_decode]
  exact isWellFormed_of_mem_split wellFormed part

end ScriptLoader.Text.Utf8
