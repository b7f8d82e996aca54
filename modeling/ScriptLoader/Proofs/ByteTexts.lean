import ScriptLoader.Proofs.ShownText

/-!
Texts and their bytes. Whatever bytes are read, writing the text gives them back, so that the texts which
stand for bytes are those which reading gives. A slash parts a text where its byte parts the bytes: a path is
made of such texts if its names are.
-/

set_option autoImplicit false
namespace ScriptLoader

namespace Text.Utf8

theorem toNat_ofNat {n : Nat} (valid : n.isValidChar) : (Char.ofNat n).toNat = n := by
  rewrite [Char.ofNat, dif_pos valid]
  rfl

/-- A byte that goes on with a character. -/
def Tail (b : UInt8) : Prop := 0x80 ≤ b.toNat ∧ b.toNat ≤ 0xBF

theorem isTail_iff (b : UInt8) : isTail b = true ↔ Tail b := by
  simp [isTail, Tail, UInt8.le_iff_toNat_le]

/-- The bytes of one character and its number, by the number of bytes. -/
inductive Sequence : List UInt8 → Nat → Prop where
  | one {a : UInt8} : a.toNat < 0x80 → Sequence [a] a.toNat
  | two {a b : UInt8} : 0xC2 ≤ a.toNat → a.toNat < 0xE0 → Tail b →
      Sequence [a, b] ((a.toNat - 0xC0) * 0x40 + b.toNat % 0x40)
  | three {a b c : UInt8} : 0xE0 ≤ a.toNat → a.toNat < 0xF0 → Tail b → Tail c →
      (a.toNat = 0xE0 → 0xA0 ≤ b.toNat) → (a.toNat = 0xED → b.toNat ≤ 0x9F) →
      Sequence [a, b, c] ((a.toNat - 0xE0) * 0x1000 + b.toNat % 0x40 * 0x40 + c.toNat % 0x40)
  | four {a b c d : UInt8} : 0xF0 ≤ a.toNat → a.toNat < 0xF5 → Tail b → Tail c → Tail d →
      (a.toNat = 0xF0 → 0x90 ≤ b.toNat) → (a.toNat = 0xF4 → b.toNat ≤ 0x8F) →
      Sequence [a, b, c, d]
        ((a.toNat - 0xF0) * 0x40000 + b.toNat % 0x40 * 0x1000 + c.toNat % 0x40 * 0x40 + d.toNat % 0x40)

theorem sequence_of_read? {bytes rest : List UInt8} {c : Char} (found : read? bytes = some (c, rest)) :
    ∃ sequence n, Sequence sequence n ∧ bytes = sequence ++ rest ∧ c = Char.ofNat n := by
  unfold read? at found
  split at found
  · cases found
  next a r =>
  -- The first byte says how many are read, and each test that was passed is a condition of the form.
  split at found
  · obtain ⟨rfl, rfl⟩ := Prod.mk.inj (Option.some.inj found)
    exact ⟨[a], _, .one (UInt8.lt_iff_toNat_lt.mp ‹_›), rfl, rfl⟩
  split at found
  · cases found
  split at found
  · cases found
  next above _ b r =>
  have above : 0xC2 ≤ a.toNat := by simpa [UInt8.lt_iff_toNat_lt] using above
  split at found
  · split at found
    · obtain ⟨rfl, rfl⟩ := Prod.mk.inj (Option.some.inj found)
      exact ⟨[a, b], _, .two above (UInt8.lt_iff_toNat_lt.mp ‹_›) ((isTail_iff b).mp ‹_›), rfl, rfl⟩
    · cases found
  split at found
  · cases found
  next above _ c r =>
  have above : 0xE0 ≤ a.toNat := by simpa [UInt8.lt_iff_toNat_lt] using above
  split at found
  next below =>
    split at found
    next fits =>
      obtain ⟨rfl, rfl⟩ := Prod.mk.inj (Option.some.inj found)
      simp [isTail_iff, UInt8.lt_iff_toNat_lt, ← UInt8.toNat_inj] at fits below
      exact ⟨[a, b, c], _, .three above below fits.1.1.1 fits.1.1.2 (by grind) (by grind), rfl, rfl⟩
    · cases found
  split at found
  · cases found
  next above _ d r =>
  have above : 0xF0 ≤ a.toNat := by simpa [UInt8.lt_iff_toNat_lt] using above
  split at found
  next fits =>
    obtain ⟨rfl, rfl⟩ := Prod.mk.inj (Option.some.inj found)
    simp [isTail_iff, UInt8.lt_iff_toNat_lt, ← UInt8.toNat_inj] at fits
    exact ⟨[a, b, c, d], _, .four above fits.1.1.1.1.1 fits.1.1.1.1.2 fits.1.1.1.2 fits.1.1.2 (by grind) (by grind),
      rfl, rfl⟩
  · cases found

theorem Sequence.read? {sequence : List UInt8} {n : Nat} (whole : Sequence sequence n) (rest : List UInt8) :
    read? (sequence ++ rest) = some (Char.ofNat n, rest) := by
  have above : ∀ {a bound : UInt8} {least : Nat}, least ≤ a.toNat → bound.toNat ≤ least → ¬ a < bound :=
    fun first below => mt UInt8.lt_iff_toNat_lt.mp (Nat.not_lt.mpr (Nat.le_trans below first))
  have below : ∀ {a bound : UInt8} {next : Nat}, a.toNat < next → bound.toNat = next → a < bound :=
    fun last same => UInt8.lt_iff_toNat_lt.mpr (same ▸ last)
  cases whole with
  | one one => exact if_pos (below one rfl)
  | two first last tail =>
    rw [Utf8.read?.eq_def]
    dsimp only [List.cons_append, List.nil_append]
    rw [if_neg (above first (by decide)), if_neg (above first (by decide)), if_pos (below last rfl),
      if_pos ((isTail_iff _).mpr tail), tailBits]
  | three first last tail tail' low high =>
    rw [Utf8.read?.eq_def]
    dsimp only [List.cons_append, List.nil_append]
    rw [if_neg (above first (by decide)), if_neg (above first (by decide)), if_neg (above first (by decide)),
      if_pos (below last rfl), if_pos]
    · simp only [tailBits]
    · simp [isTail_iff, UInt8.lt_iff_toNat_lt, tail, tail', ← UInt8.toNat_inj]
      omega
  | four first last tail tail' tail'' low high =>
    rw [Utf8.read?.eq_def]
    dsimp only [List.cons_append, List.nil_append]
    rw [if_neg (above first (by decide)), if_neg (above first (by decide)), if_neg (above first (by decide)),
      if_neg (above first (by decide)), if_pos]
    · simp only [tailBits]
    · simp [isTail_iff, UInt8.lt_iff_toNat_lt, last, tail, tail', tail'', ← UInt8.toNat_inj]
      omega

theorem Sequence.isValidChar {sequence : List UInt8} {n : Nat} (whole : Sequence sequence n) : n.isValidChar := by
  simp only [Nat.isValidChar]
  cases whole <;> grind [Tail]

theorem Sequence.eq_utf8EncodeChar {sequence : List UInt8} {n : Nat} (whole : Sequence sequence n) :
    sequence = String.utf8EncodeChar (Char.ofNat n) := by
  have value : (Char.ofNat n).val.toNat = n := toNat_ofNat whole.isValidChar
  simp only [String.utf8EncodeChar, value]
  clear value
  cases whole with
  | one one =>
    rw [if_pos (by omega)]
    simp
  | two first last tail =>
    unfold Tail at *
    rw [if_neg (by omega), if_pos (by omega)]
    simp only [List.cons.injEq, ← UInt8.toNat_inj, UInt8.toNat_ofNat', and_true]
    omega
  | three first last tail tail' low high =>
    unfold Tail at *
    rw [if_neg (by omega), if_neg (by omega), if_pos (by omega)]
    simp only [List.cons.injEq, ← UInt8.toNat_inj, UInt8.toNat_ofNat', and_true]
    omega
  | four first last tail tail' tail'' low high =>
    unfold Tail at *
    rw [if_neg (by omega), if_neg (by omega), if_neg (by omega)]
    simp only [List.cons.injEq, ← UInt8.toNat_inj, UInt8.toNat_ofNat', and_true]
    omega

theorem Sequence.high {first : UInt8} {more : List UInt8} {n : Nat} (whole : Sequence (first :: more) n) :
    ∀ b ∈ more, 0x80 ≤ b.toNat := by
  cases whole <;> simp_all [Tail]

theorem not_isStray_small {n : Nat} (small : n < 0x80) : isStray (Char.ofNat n) = false := by
  have value : (Char.ofNat n).toNat = n := toNat_ofNat (Or.inl (by omega))
  simp [isStray, value, firstStray]
  omega

theorem isStray_of_small {c : Char} (small : c.toNat < 0x80) : isStray c = false := by
  rw [← Char.ofNat_toNat c]
  exact not_isStray_small small

theorem isValid_toString (n : Nat) : isValid (toString n) = true := by
  rw [isValid_iff]
  intro c mem
  have digit : c.isDigit = true := Nat.isDigit_of_mem_toDigits (by decide : 0 < 10) (by decide) (by simpa using mem)
  simp only [Char.isDigit, Bool.and_eq_true, decide_eq_true_eq] at digit
  exact isStray_of_small (Nat.lt_of_le_of_lt (UInt32.le_iff_toNat_le.mp digit.2) (by decide))

/-- No character is read at the front of the bytes, or only one that is reserved. -/
def Unread (bytes : List UInt8) : Prop :=
  ∀ sequence n rest, Sequence sequence n → bytes = sequence ++ rest → isStray (Char.ofNat n) = true

theorem decodeChars_sequence {sequence : List UInt8} {n : Nat} (whole : Sequence sequence n)
    (kept : isStray (Char.ofNat n) = false) (rest : List UInt8) :
    decodeChars (sequence ++ rest) = Char.ofNat n :: decodeChars rest := by
  have found := whole.read? rest
  cases front : sequence ++ rest with
  | nil => rw [front] at found; cases found
  | cons first more =>
    rw [front] at found
    rw [decodeChars]
    split
    next same =>
      obtain ⟨rfl, rfl⟩ := Prod.mk.inj (Option.some.inj (found.symm.trans same))
      rw [if_neg (by rw [kept]; exact Bool.false_ne_true)]
    next same => cases found.symm.trans same

theorem decodeChars_unread {first : UInt8} {more : List UInt8} (unread : Unread (first :: more)) :
    decodeChars (first :: more) = stray first :: decodeChars more := by
  rw [decodeChars]
  split
  next c rest found =>
    obtain ⟨sequence, n, whole, bytes, rfl⟩ := sequence_of_read? found
    rw [if_pos (unread sequence n rest whole bytes)]
  next => rfl

/-- Bytes begin with a character that is kept, or are unread. -/
theorem sequence_or_unread (bytes : List UInt8) :
    (∃ sequence n rest, Sequence sequence n ∧ isStray (Char.ofNat n) = false ∧ bytes = sequence ++ rest) ∨
    Unread bytes := by
  by_cases unread : Unread bytes
  · exact .inr unread
  · simp only [Unread, not_forall, Bool.not_eq_true] at unread
    obtain ⟨sequence, n, rest, whole, bytes, kept⟩ := unread
    exact .inl ⟨sequence, n, rest, whole, kept, bytes⟩

theorem Unread.high {first : UInt8} {more : List UInt8} (unread : Unread (first :: more)) : 0x80 ≤ first.toNat := by
  by_contra small
  have read := unread [first] first.toNat more (.one (Nat.not_le.mp small)) rfl
  rw [not_isStray_small (Nat.not_le.mp small)] at read
  exact Bool.false_ne_true read

theorem Unread.append {bytes : List UInt8} (unread : Unread bytes) (some_byte : bytes ≠ []) {b : UInt8}
    (small : b.toNat < 0x80) (rest : List UInt8) : Unread (bytes ++ b :: rest) := by
  intro sequence n after whole split
  rcases List.append_eq_append_iff.mp split with ⟨more, longer, tail⟩ | ⟨more, shorter, -⟩
  · cases more with
    | nil => exact unread sequence n [] whole (by simp [longer])
    | cons c others =>
      -- A character that went on to the small byte would have it among its later bytes.
      obtain ⟨rfl, -⟩ := List.cons.inj tail
      obtain ⟨first, before, rfl⟩ := List.exists_cons_of_ne_nil some_byte
      rw [longer] at whole
      exact absurd (whole.high b (by simp)) (Nat.not_le.mpr small)
  · exact unread sequence n more whole shorter

theorem Unread.of_append {bytes more : List UInt8} (unread : Unread (bytes ++ more)) : Unread bytes := by
  intro sequence n rest whole same
  exact unread sequence n (rest ++ more) whole (by rw [same, List.append_assoc])

theorem encodeChar_stray {b : UInt8} (high : 0x80 ≤ b.toNat) : encodeChar (stray b) = [b] := by
  have bound := b.toNat_lt
  have value : (stray b).toNat = firstStray + b.toNat := toNat_ofNat (Or.inr (by unfold firstStray; omega))
  have reserved : isStray (stray b) = true := by
    simp only [isStray, value, Bool.and_eq_true, decide_eq_true_eq]
    omega
  rw [encodeChar, if_pos reserved, value, Nat.add_sub_cancel_left, UInt8.ofNat_toNat]

theorem Sequence.encodeChar_eq {sequence : List UInt8} {n : Nat} (whole : Sequence sequence n)
    (plain : isStray (Char.ofNat n) = false) : encodeChar (Char.ofNat n) = sequence := by
  rw [encodeChar, plain, if_neg Bool.false_ne_true, whole.eq_utf8EncodeChar]

/-- Induction as bytes are read: a character that is kept, or one byte. -/
@[elab_as_elim]
theorem read_induction {motive : List UInt8 → Prop} (bytes : List UInt8) (nil : motive [])
    (kept : ∀ sequence n rest, Sequence sequence n → isStray (Char.ofNat n) = false → motive rest →
    motive (sequence ++ rest))
    (unread : ∀ first more, Unread (first :: more) → motive more → motive (first :: more)) : motive bytes := by
  induction size : bytes.length using Nat.strong_induction_on generalizing bytes with
  | _ _ ih =>
  rcases sequence_or_unread bytes with ⟨sequence, n, rest, whole, plain, rfl⟩ | none
  · have some_byte : 0 < sequence.length := by cases whole <;> exact Nat.succ_pos _
    exact kept sequence n rest whole plain (ih rest.length (by rw [← size, List.length_append]; omega) rest rfl)
  · cases bytes with
    | nil => exact nil
    | cons first more => exact unread first more none (ih more.length (by simp [← size]) more rfl)

theorem encode_decode (bytes : List UInt8) : encode (decode bytes) = bytes := by
  rw [encode, decode, String.toList_ofList]
  induction bytes using read_induction with
  | nil => simp [decodeChars]
  | kept sequence n rest whole plain ih =>
    rw [decodeChars_sequence whole plain, List.flatMap_cons, whole.encodeChar_eq plain, ih]
  | unread first more none ih =>
    rw [decodeChars_unread none, List.flatMap_cons, encodeChar_stray none.high, ih]
    rfl

theorem decode_injective {bytes others : List UInt8} (same : decode bytes = decode others) : bytes = others := by
  rw [← encode_decode bytes, same, encode_decode]

/-- The characters that are read first are read from their own bytes alone. -/
theorem decodeChars_of_append {bytes : List UInt8} {first second : List Char}
    (read : decodeChars bytes = first ++ second) :
    decodeChars (first.flatMap encodeChar) = first := by
  induction bytes using read_induction generalizing first with
  | nil =>
    rw [decodeChars] at read
    obtain ⟨rfl, -⟩ := List.append_eq_nil_iff.mp read.symm
    rw [List.flatMap_nil, decodeChars]
  | kept sequence n rest whole plain ih =>
    rw [decodeChars_sequence whole plain] at read
    cases first with
    | nil => rw [List.flatMap_nil, decodeChars]
    | cons c more =>
      obtain ⟨rfl, later⟩ := List.cons.inj read
      rw [List.flatMap_cons, whole.encodeChar_eq plain, decodeChars_sequence whole plain, ih later]
  | unread b more none ih =>
    rw [decodeChars_unread none] at read
    cases first with
    | nil => rw [List.flatMap_nil, decodeChars]
    | cons c chars =>
      rw [List.cons_append] at read
      obtain ⟨rfl, later⟩ := List.cons.inj read
      -- The bytes of the characters that are left are the first of those that followed, so that they are
      -- unread as well.
      have bytes : more = chars.flatMap encodeChar ++ second.flatMap encodeChar := by
        conv_lhs => rw [← encode_decode more]
        rw [encode, decode, String.toList_ofList, later, List.flatMap_append]
      have unread : Unread (b :: chars.flatMap encodeChar) := by
        rw [bytes, ← List.cons_append] at none
        exact none.of_append
      rw [List.flatMap_cons, encodeChar_stray none.high, List.singleton_append, decodeChars_unread unread, ih later]

/-- A byte of ASCII is read by itself, whatever stands around it. -/
theorem decodeChars_append_cons (bytes : List UInt8) {b : UInt8} (small : b.toNat < 0x80) (rest : List UInt8) :
    decodeChars (bytes ++ b :: rest) = decodeChars bytes ++ Char.ofNat b.toNat :: decodeChars rest := by
  induction bytes using read_induction with
  | nil =>
    rw [decodeChars]
    exact decodeChars_sequence (.one small) (not_isStray_small small) rest
  | kept sequence n others whole plain ih =>
    rw [List.append_assoc, decodeChars_sequence whole plain, decodeChars_sequence whole plain, ih, List.cons_append]
  | unread first more none ih =>
    have later : Unread (first :: (more ++ b :: rest)) := none.append (List.cons_ne_nil _ _) small rest
    rw [List.cons_append, decodeChars_unread later, decodeChars_unread none, ih, List.cons_append]

/-- A text that stands for bytes: written and read back, it is the same. -/
def Readable (s : String) : Prop := decode (encode s) = s

theorem readable_decode (bytes : List UInt8) : Readable (decode bytes) := by
  rw [Readable, encode_decode]

theorem Readable.of_append {s t : String} (readable : Readable (s ++ t)) : Readable s := by
  have read : decodeChars (encode (s ++ t)) = s.toList ++ t.toList := by
    rw [← String.toList_append, ← String.toList_ofList (l := decodeChars _), ← decode, readable]
  rw [Readable, decode, encode, decodeChars_of_append read, String.ofList_toList]

theorem Sequence.cast {sequence : List UInt8} {n m : Nat} (whole : Sequence sequence n) (same : n = m) :
    Sequence sequence m :=
  same ▸ whole

theorem sequence_utf8EncodeChar (c : Char) : Sequence (String.utf8EncodeChar c) c.toNat := by
  have valid : c.toNat < 0xD800 ∨ 0xDFFF < c.toNat ∧ c.toNat < 0x110000 := c.valid
  have value : c.val.toNat = c.toNat := rfl
  have byte : ∀ m, (UInt8.ofNat m).toNat = m % 0x100 := fun _ => UInt8.toNat_ofNat'
  simp only [String.utf8EncodeChar, value]
  clear value
  generalize c.toNat = n at *
  split
  · exact (Sequence.one (by rw [byte]; omega)).cast (by rw [byte]; omega)
  split
  · refine (Sequence.two ?_ ?_ ?_).cast ?_ <;> simp only [Tail, byte] <;> omega
  split
  · refine (Sequence.three ?_ ?_ ?_ ?_ ?_ ?_).cast ?_ <;> simp only [Tail, byte] <;> omega
  · refine (Sequence.four ?_ ?_ ?_ ?_ ?_ ?_ ?_).cast ?_ <;> simp only [Tail, byte] <;> omega

/-- A text without strays stands for the bytes of its characters. -/
theorem readable_of_isValid {s : String} (valid : isValid s = true) : Readable s := by
  rw [isValid_iff] at valid
  have chars : decodeChars (s.toList.flatMap encodeChar) = s.toList := by
    generalize s.toList = chars at valid ⊢
    induction chars with
    | nil => simp [decodeChars]
    | cons c rest ih =>
      obtain ⟨plain, others⟩ := List.forall_mem_cons.mp valid
      have back : Char.ofNat c.toNat = c := Char.ofNat_toNat c
      rw [List.flatMap_cons, encodeChar, if_neg (by rw [plain]; exact Bool.false_ne_true),
        decodeChars_sequence (sequence_utf8EncodeChar c) (by rw [back, plain]), back, ih others]
  rw [Readable, decode, encode, chars, String.ofList_toList]

theorem not_mem_decodeChars {bytes : List UInt8} (absent : 0x2F ∉ bytes) : '/' ∉ decodeChars bytes := by
  intro mem
  have written : encode (decode bytes) = bytes := encode_decode bytes
  rw [encode, decode, String.toList_ofList] at written
  apply absent
  rw [← written]
  exact List.mem_flatMap.mpr ⟨'/', mem, by decide⟩

theorem split_decodeChars (bytes : List UInt8) :
    split '/' (decodeChars bytes) = (split 0x2F bytes).map decodeChars := by
  induction size : bytes.length using Nat.strong_induction_on generalizing bytes with
  | _ _ ih =>
  -- Cut at the first slash: both sides begin with what stands before it.
  by_cases mem : 0x2F ∈ bytes
  · obtain ⟨before, after, rfl, absent⟩ := List.eq_append_cons_of_mem mem
    rw [decodeChars_append_cons before (by decide), split_append absent, List.map_cons,
      ← ih after.length (by simp [← size]; omega) after rfl]
    exact split_append (not_mem_decodeChars absent) (decodeChars after)
  · rw [split_of_not_mem mem, split_of_not_mem (not_mem_decodeChars mem)]
    rfl

theorem pieces_decode (bytes : List UInt8) : pieces (decode bytes) '/' = (split 0x2F bytes).map decode := by
  rw [pieces, decode, String.toList_ofList, split_decodeChars, List.map_map]
  rfl

theorem Readable.of_mem_pieces {s piece : String} (readable : Readable s) (mem : piece ∈ pieces s '/') :
    Readable piece := by
  rw [← readable, pieces_decode] at mem
  obtain ⟨bytes, -, rfl⟩ := List.mem_map.mp mem
  exact readable_decode bytes

theorem encode_append (s t : String) : encode (s ++ t) = encode s ++ encode t := by
  simp only [encode, String.toList_append, List.flatMap_append]

theorem encode_append_slash (s t : String) : encode (s ++ "/" ++ t) = encode s ++ 0x2F :: encode t := by
  rw [encode_append, encode_append, List.append_assoc]
  rfl

theorem Readable.append_slash {s t : String} (first : Readable s) (second : Readable t) : Readable (s ++ "/" ++ t) := by
  apply String.toList_inj.mp
  rw [decode, encode_append_slash, String.toList_ofList, decodeChars_append_cons _ (by decide)]
  conv_rhs => rw [← first, ← second]
  simp [decode]

theorem Readable.intercalate {names : List String} (readable : ∀ name ∈ names, Readable name) :
    Readable (String.intercalate "/" names) := by
  induction names with
  | nil => exact readable_of_isValid rfl
  | cons name rest ih =>
    obtain ⟨first, others⟩ := List.forall_mem_cons.mp readable
    by_cases alone : rest = []
    · rw [alone, String.intercalate_singleton]
      exact first
    · rw [String.intercalate_cons_of_ne_nil alone]
      exact first.append_slash (ih others)

end Text.Utf8

namespace Path
open Text.Utf8

theorem readable_of_mem_foldl {p : String} (readable : Readable p) {parts : List String}
    (some_of : parts ⊆ Text.pieces p '/')
    {rooted : Bool} : ∀ name ∈ (parts.foldl (push rooted) []).reverse, Readable name := by
  intro name mem
  rcases mem_foldl_push (List.mem_reverse.mp mem) with piece | nothing
  · exact readable.of_mem_pieces (some_of piece)
  · cases nothing

theorem readable_ofComponents {rooted : Bool} {names : List String} (readable : ∀ name ∈ names, Readable name) :
    Readable (ofComponents rooted names) := by
  have joined := Readable.intercalate readable
  unfold ofComponents
  split
  · simpa using (readable_of_isValid rfl : Readable "").append_slash joined
  · split
    · exact readable_of_isValid rfl
    · exact joined

theorem readable_clean {p : String} (readable : Readable p) : Readable (clean p) :=
  readable_ofComponents (readable_of_mem_foldl readable (List.Subset.refl _))

theorem readable_dir {p : String} (rooted : isAbs p = true) (readable : Readable p) : Readable (dir p) := by
  have some_piece : Text.pieces p '/' ≠ [] := by simp [Text.pieces, Text.split_ne_nil]
  obtain ⟨names, last, whole⟩ := (List.eq_nil_or_concat (Text.pieces p '/')).resolve_left some_piece
  rw [List.concat_eq_append] at whole
  rw [dir_of_pieces rooted whole]
  exact readable_ofComponents (readable_of_mem_foldl readable (whole ▸ List.subset_append_left _ _))

theorem readable_join {parts : List String} (readable : ∀ part ∈ parts, Readable part) : Readable (join parts) := by
  unfold join
  dsimp only
  split
  · exact readable_of_isValid rfl
  · exact readable_clean (Readable.intercalate fun part mem => readable part (List.mem_of_mem_filter mem))

theorem readable_abs {cwd p : String} (here : Readable cwd) (readable : Readable p) : Readable (abs cwd p) := by
  unfold abs
  split
  · exact readable_clean readable
  · exact readable_join (by simp [here, readable])

end Path
end ScriptLoader
