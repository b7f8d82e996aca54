import ScriptLoader.Proofs.Json.Numbers
import ScriptLoader.Proofs.ShownText

/-!
Written arrays and objects, and their reader. A reader of plain JSON finds the elements and members in their
order, names as they are shown, whatever blanks stand between them.
-/

set_option autoImplicit false
namespace ScriptLoader.Json
open Text.Utf8

/-! ## Texts -/

theorem fourHex?_append {digits : List Char} {n : Nat} (found : fourHex? digits = some (n, [])) (rest : List Char) :
    fourHex? (digits ++ rest) = some (n, rest) := by
  match digits with
  | [] | [_] | [_, _] | [_, _, _] => cases found
  | a :: b :: c :: d :: more =>
    simp only [fourHex?, List.cons_append, Option.bind_eq_bind, Option.bind_eq_some_iff,
      Option.pure_def, Option.some.injEq, Prod.mk.injEq] at found ⊢
    obtain ⟨a', first, b', second, c', third, d', fourth, value, rfl⟩ := found
    exact ⟨a', first, b', second, c', third, d', fourth, value, rfl⟩

/-- The numbers of the characters that are written as escapes. -/
def Escaped (n : Nat) : Prop := n < 0x80 ∨ n = 0x2028 ∨ n = 0x2029 ∨ n = 0xFFFD

theorem fourHex?_hex {n : Nat} (escaped : Escaped n) : fourHex? (Text.hex 4 n).toList = some (n, []) := by
  have small : ∀ n : Fin 0x80, fourHex? (Text.hex 4 n).toList = some (n.val, []) := by decide +kernel
  rcases escaped with below | rfl | rfl | rfl
  · exact small ⟨n, below⟩
  all_goals decide +kernel

def before (c : Char) (read : List Char × List Char) : List Char × List Char := (c :: read.1, read.2)

theorem stringBody?_hex {n : Nat} (escaped : Escaped n) (fuel : Nat) (rest : List Char) :
    stringBody? (fuel + 1) ('\\' :: 'u' :: (Text.hex 4 n).toList ++ rest) =
      (stringBody? fuel rest).map (before (Char.ofNat n)) := by
  have read : unicodeEscape? ((Text.hex 4 n).toList ++ rest) = some (Char.ofNat n, rest) := by
    have no_pair : isHighSurrogate n = false ∧ isLowSurrogate n = false := by
      unfold Escaped at escaped
      simp only [isHighSurrogate, isLowSurrogate, Bool.and_eq_false_iff, decide_eq_false_iff_not]
      omega
    simp [unicodeEscape?, fourHex?_append (fourHex?_hex escaped), no_pair]
  rw [List.cons_append, List.cons_append, stringBody?, if_neg (by decide), if_pos rfl, read,
    Option.bind_eq_bind, Option.bind_some]
  dsimp only
  cases stringBody? fuel rest <;> rfl

theorem stringBody?_escape {c e : Char} (read : plainEscape? e = some c) (other : e ≠ 'u')
    (fuel : Nat) (rest : List Char) :
    stringBody? (fuel + 1) ('\\' :: e :: rest) = (stringBody? fuel rest).map (before c) := by
  rw [stringBody?, if_neg (by decide), if_pos rfl, read]
  · cases stringBody? fuel rest <;> rfl
  · exact other

theorem stringBody?_escapeChar (c : Char) (fuel : Nat) (rest : List Char) :
    stringBody? (fuel + 1) (escapeChar c ++ rest) = (stringBody? fuel rest).map (before (shownChar c)) := by
  by_cases lone : isStray c = true
  · rw [escapeChar, if_pos lone, shownChar, if_pos lone]
    exact stringBody?_hex (.inr (.inr (.inr rfl))) fuel rest
  rw [escapeChar, if_neg lone, shownChar, if_neg lone]
  repeat' split
  iterate 5
    next same =>
      subst same
      exact stringBody?_escape rfl (by decide) fuel rest
  next low =>
    have small : c.toNat < 0x80 := by
      rcases low with low | rfl | rfl | rfl
      · omega
      all_goals decide
    simpa using stringBody?_hex (.inl small) fuel rest
  next separator => simpa using stringBody?_hex (n := c.toNat) (by unfold Escaped; omega) fuel rest
  next no_quote no_slash _ _ _ high _ =>
    rw [List.singleton_append, stringBody?.eq_def]
    dsimp only
    rw [if_neg no_quote, if_neg no_slash, if_neg fun low => high (.inl low)]
    cases stringBody? fuel rest <;> rfl

theorem length_pos_escapeChar (c : Char) : 0 < (escapeChar c).length := by
  unfold escapeChar
  repeat' split
  all_goals simp

theorem stringBody?_written {chars : List Char} {fuel : Nat} (enough : chars.length < fuel) (rest : List Char) :
    stringBody? fuel (chars.flatMap escapeChar ++ '"' :: rest) = some (chars.map shownChar, rest) := by
  induction chars generalizing fuel with
  | nil =>
    obtain ⟨fuel, rfl⟩ := Nat.exists_eq_succ_of_ne_zero (Nat.ne_of_gt enough)
    rfl
  | cons c others ih =>
    obtain ⟨fuel, rfl⟩ := Nat.exists_eq_succ_of_ne_zero (Nat.ne_of_gt (Nat.zero_lt_of_lt enough))
    rw [List.flatMap_cons, List.append_assoc, stringBody?_escapeChar, ih (Nat.lt_of_succ_lt_succ enough)]
    rfl

theorem string?_written (s : String) (rest : List Char) :
    string? (s.toList.flatMap escapeChar ++ '"' :: rest) = some (shown s, rest) := by
  have longer : s.toList.length ≤ (s.toList.flatMap escapeChar).length := by
    generalize s.toList = chars
    induction chars with
    | nil => exact Nat.le_refl _
    | cons c others ih =>
      have := length_pos_escapeChar c
      rw [List.flatMap_cons, List.length_append, List.length_cons]
      omega
  rw [string?, stringBody?_written (by rw [List.length_append]; omega)]
  rfl

theorem toList_quote (s : String) : (quote s).toList = '"' :: (s.toList.flatMap escapeChar ++ ['"']) := by
  rw [quote, String.toList_ofList, List.cons_append]

/-! ## Blanks -/

abbrev Blanks : Type := { s : List Char // ∀ c ∈ s, isBlank c = true }

def Blanks.none : Blanks := ⟨[], fun _ mem => absurd mem List.not_mem_nil⟩

/-- The blanks in an array or an object: before its first element, after each comma, after the last element,
and between the colon of a member and its value. -/
structure Spacing where
  first : Blanks
  next : Blanks
  last : Blanks
  colon : Blanks

def Spacing.compact : Spacing := ⟨.none, .none, .none, .none⟩

theorem skip?_of_not_blank {c : Char} (mark : isBlank c = false) (fuel : Nat) (rest : List Char) :
    skip? .plain fuel (c :: rest) = some (c :: rest) := by
  cases fuel with
  | zero => rfl
  | succ fuel => simp [skip?, mark, Dialect.plain]

theorem skip?_blanks (gap : Blanks) {c : Char} (mark : isBlank c = false) (rest : List Char) :
    skip? .plain (gap.val ++ c :: rest).length (gap.val ++ c :: rest) = some (c :: rest) := by
  obtain ⟨gap, blank⟩ := gap
  induction gap with
  | nil => exact skip?_of_not_blank mark _ rest
  | cons b gap ih =>
    obtain ⟨first, blank⟩ := List.forall_mem_cons.mp blank
    rw [List.cons_append, List.length_cons, skip?.eq_def]
    simp only [first, if_true]
    exact ih blank

theorem skip?_all (gap : Blanks) : skip? .plain gap.val.length gap.val = some [] := by
  obtain ⟨gap, blank⟩ := gap
  induction gap with
  | nil => rfl
  | cons b gap ih =>
    obtain ⟨first, blank⟩ := List.forall_mem_cons.mp blank
    rw [List.length_cons, skip?.eq_def]
    simp only [first, if_true]
    exact ih blank

/-- The marks that may follow a value. -/
def Closing (c : Char) : Prop := c = ',' ∨ c = ']' ∨ c = '}'

theorem Closing.not_blank {c : Char} (closes : Closing c) : isBlank c = false := by
  rcases closes with rfl | rfl | rfl <;> rfl

theorem endsNumber_of_head? {rest : List Char} (ends : ∀ c ∈ rest.head?, isBlank c = true ∨ Closing c) :
    EndsNumber rest := by
  have other : ∀ c ∈ rest.head?, c.isDigit = false ∧ c ≠ '.' ∧ c ≠ 'e' ∧ c ≠ 'E' := by
    intro c next
    have closes := ends c next
    simp only [isBlank, Closing, Bool.or_eq_true, decide_eq_true_eq] at closes
    rcases closes with (((rfl | rfl) | rfl) | rfl) | rfl | rfl | rfl <;> decide
  exact ⟨fun c next => (other c next).1, fun next => (other '.' next).2.1 rfl, fun c next => (other c next).2.2⟩

theorem endsNumber_blanks (gap : Blanks) {mark : Char} (closes : Closing mark) (rest : List Char) :
    EndsNumber (gap.val ++ mark :: rest) := by
  refine endsNumber_of_head? fun c next => ?_
  obtain ⟨gap, blank⟩ := gap
  cases gap with
  | nil => exact .inr (Option.some.inj next ▸ closes)
  | cons b gap => exact .inl (Option.some.inj next ▸ blank b List.mem_cons_self)

/-! ## Arrays -/

/-- A text is read as a value, up to what follows it. It begins with no blank, and not as the end of an array. -/
structure ReadsAs (text : List Char) (read : Json) : Prop where
  starts : ∃ c more, text = c :: more ∧ isBlank c = false ∧ c ≠ ']'
  reads : ∀ {fuel : Nat}, text.length ≤ fuel → ∀ {rest : List Char}, EndsNumber rest →
    value? .plain fuel (text ++ rest) = some (read, rest)

def listed (gap : Blanks) (texts : List (List Char)) : List Char := (',' :: gap.val).intercalate texts

theorem listed_singleton (gap : Blanks) (text : List Char) : listed gap [text] = text := List.intercalate_singleton

theorem listed_cons (gap : Blanks) (text : List Char) {others : List (List Char)} (more : others ≠ []) :
    listed gap (text :: others) = text ++ ',' :: (gap.val ++ listed gap others) := by
  rw [listed, List.intercalate_cons_of_ne_nil more, List.append_assoc, List.cons_append, listed]

theorem starts_listed {text : List Char} {c : Char} {more : List Char} (starts : text = c :: more) (gap : Blanks)
    (others : List (List Char)) : ∃ rest, listed gap (text :: others) = c :: rest := by
  by_cases alone : others = []
  · rw [alone, listed_singleton]
    exact ⟨more, starts⟩
  · rw [listed_cons gap text alone, starts]
    exact ⟨_, rfl⟩

theorem items?_step {text : List Char} {read : Json} (reads : ReadsAs text read) {fuel : Nat}
    (enough : text.length ≤ fuel) (gap : Blanks) {mark : Char} (closes : Closing mark) (rest : List Char) :
    items? .plain (fuel + 1) (text ++ (gap.val ++ mark :: rest)) =
      match mark :: rest with
      | ']' :: rest => some ([read], rest)
      | ',' :: rest => do
        let rest ← skip? .plain rest.length rest
        match rest with
        | ']' :: _ => none
        | rest =>
          let (items, rest) ← items? .plain fuel rest
          return (read :: items, rest)
      | _ => none := by
  rw [items?, reads.reads enough (endsNumber_blanks gap closes rest)]
  simp only [Option.bind_eq_bind, Option.bind_some, skip?_blanks gap closes.not_blank]
  rfl

section
variable {α : Type} {items : List α} {write : α → List Char} {read : α → Json} (spacing : Spacing)

theorem starts_items (some_item : items ≠ []) (each : ∀ item ∈ items, ReadsAs (write item) (read item)) (gap : Blanks) :
    ∃ c more, listed gap (items.map write) = c :: more ∧ isBlank c = false ∧ c ≠ ']' := by
  obtain ⟨item, others, rfl⟩ := List.exists_cons_of_ne_nil some_item
  obtain ⟨c, more, starts, begins⟩ := (each item List.mem_cons_self).starts
  obtain ⟨rest, starts⟩ := starts_listed starts gap (others.map write)
  exact ⟨c, rest, starts, begins⟩

theorem items?_listed (some_item : items ≠ []) (each : ∀ item ∈ items, ReadsAs (write item) (read item)) (fuel : Nat)
    (enough : (listed spacing.next (items.map write)).length < fuel) (rest : List Char) :
    items? .plain fuel (listed spacing.next (items.map write) ++ (spacing.last.val ++ ']' :: rest)) =
      some (items.map read, rest) := by
  -- An element alone is the whole text, so that the fuel which the list itself takes comes on top of the length.
  induction items generalizing fuel with
  | nil => exact absurd rfl some_item
  | cons item others ih =>
    obtain ⟨first, each⟩ := List.forall_mem_cons.mp each
    obtain ⟨fuel, rfl⟩ : ∃ k, fuel = k + 1 := ⟨fuel - 1, by omega⟩
    by_cases alone : others = []
    · subst alone
      rw [List.map_singleton, listed_singleton] at enough ⊢
      rw [items?_step first (by omega) spacing.last (.inr (.inl rfl))]
      rfl
    · rw [List.map_cons, listed_cons _ _ (by simpa using alone)] at enough ⊢
      rw [List.length_append, List.length_cons, List.length_append] at enough
      have later := ih alone each fuel (by omega)
      obtain ⟨c, more, starts, begins, opens⟩ := starts_items alone each spacing.next
      rw [starts, List.cons_append] at later
      have step := items?_step first (by omega : (write item).length ≤ fuel) .none (.inl rfl)
        (spacing.next.val ++ (c :: (more ++ (spacing.last.val ++ ']' :: rest))))
      rw [List.append_assoc, List.cons_append, List.append_assoc, starts, List.cons_append]
      refine step.trans ?_
      simp only [skip?_blanks spacing.next begins, Option.bind_eq_bind, Option.bind_some]
      split
      next same => exact absurd (List.head_eq_of_cons_eq same) opens
      next => exact congrArg (Option.bind · fun found => some (read item :: found.1, found.2)) later

def arrayText (texts : List (List Char)) : List Char :=
  '[' :: (spacing.first.val ++ (listed spacing.next texts ++ (spacing.last.val ++ [']'])))

theorem readsAs_array (some_item : items ≠ []) (each : ∀ item ∈ items, ReadsAs (write item) (read item)) :
    ReadsAs (arrayText spacing (items.map write)) (.array (items.map read)) := by
  refine ⟨⟨'[', _, rfl, rfl, by decide⟩, ?_⟩
  intro fuel enough rest _
  rw [arrayText, List.length_cons, List.length_append, List.length_append, List.length_append,
    List.length_singleton] at enough
  obtain ⟨fuel, rfl⟩ : ∃ k, fuel = k + 1 := ⟨fuel - 1, by omega⟩
  have inner := items?_listed spacing some_item each fuel (by omega) rest
  obtain ⟨c, more, starts, begins, opens⟩ := starts_items some_item each spacing.next
  simp only [arrayText, List.cons_append, List.append_assoc, List.nil_append]
  rw [starts, List.cons_append] at inner ⊢
  rw [value?]
  simp only [skip?_blanks spacing.first begins, Option.bind_eq_bind, Option.bind_some]
  split
  next same => exact absurd (List.head_eq_of_cons_eq same) opens
  next => exact congrArg (Option.bind · fun found => some (Json.array found.1, found.2)) inner

theorem readsAs_empty_array : ReadsAs ['[', ']'] (.array []) := by
  refine ⟨⟨'[', _, rfl, rfl, by decide⟩, ?_⟩
  intro fuel enough rest _
  obtain ⟨fuel, rfl⟩ : ∃ k, fuel = k + 1 := ⟨fuel - 1, by rw [List.length_cons] at enough; omega⟩
  simp [value?, skip?_of_not_blank (rfl : isBlank ']' = false)]

end

/-! ## Objects -/

section
variable {α : Type} {members : List (String × α)} {write : α → List Char} {read : α → Json} (spacing : Spacing)

def memberText (write : α → List Char) (member : String × α) : List Char :=
  (quote member.1).toList ++ ':' :: (spacing.colon.val ++ write member.2)

theorem memberText_append (write : α → List Char) (member : String × α) (rest : List Char) :
    memberText spacing write member ++ rest =
    '"' :: (member.1.toList.flatMap escapeChar ++ '"' :: ':' :: (spacing.colon.val ++ (write member.2 ++ rest))) := by
  simp [memberText, toList_quote]

theorem length_lt_memberText (member : String × α) :
    (write member.2).length < (memberText spacing write member).length := by
  simp only [memberText, List.length_append, List.length_cons]
  omega

theorem members?_step {member : String × α} (reads : ReadsAs (write member.2) (read member.2)) {fuel : Nat}
    (enough : (memberText spacing write member).length ≤ fuel + 1) (gap : Blanks) {mark : Char} (closes : Closing mark)
    (rest : List Char) :
    members? .plain (fuel + 1) (memberText spacing write member ++ (gap.val ++ mark :: rest)) =
      match mark :: rest with
      | '}' :: rest => some ([(shown member.1, read member.2)], rest)
      | ',' :: rest => do
        let rest ← skip? .plain rest.length rest
        match rest with
        | '}' :: _ => none
        | rest =>
          let (members, rest) ← members? .plain fuel rest
          return ((shown member.1, read member.2) :: members, rest)
      | _ => none := by
  obtain ⟨c, more, starts, begins, -⟩ := reads.starts
  have value := reads.reads (Nat.le_of_lt_succ ((length_lt_memberText spacing member).trans_le enough))
    (endsNumber_blanks gap closes rest)
  rw [starts] at value
  rw [memberText_append, members?, string?_written, starts]
  simp only [Option.bind_eq_bind, Option.bind_some, List.cons_append, skip?_of_not_blank (rfl : isBlank ':' = false),
    skip?_blanks spacing.colon begins]
  rw [← List.cons_append, value]
  simp only [Option.bind_some, skip?_blanks gap closes.not_blank]
  rfl

theorem starts_members (write : α → List Char) (some_member : members ≠ []) :
    ∃ more, listed spacing.next (members.map (memberText spacing write)) = '"' :: more := by
  obtain ⟨member, others, rfl⟩ := List.exists_cons_of_ne_nil some_member
  have starts := memberText_append spacing write member []
  rw [List.append_nil] at starts
  exact starts_listed starts spacing.next (others.map (memberText spacing write))

def memberAsRead (read : α → Json) (member : String × α) : String × Json := (shown member.1, read member.2)

theorem members?_listed (some_member : members ≠ [])
    (each : ∀ member ∈ members, ReadsAs (write member.2) (read member.2))
    (fuel : Nat) (enough : (listed spacing.next (members.map (memberText spacing write))).length ≤ fuel)
    (rest : List Char) :
    members? .plain fuel (listed spacing.next (members.map (memberText spacing write)) ++
      (spacing.last.val ++ '}' :: rest)) = some (members.map (memberAsRead read), rest) := by
  -- Every member takes one unit of fuel and at least one character with it.
  induction members generalizing fuel with
  | nil => exact absurd rfl some_member
  | cons member others ih =>
    obtain ⟨first, each⟩ := List.forall_mem_cons.mp each
    obtain ⟨fuel, rfl⟩ : ∃ k, fuel = k + 1 := by
      obtain ⟨more, starts⟩ := starts_members spacing write some_member
      rw [starts, List.length_cons] at enough
      exact ⟨fuel - 1, by omega⟩
    by_cases alone : others = []
    · subst alone
      rw [List.map_singleton, listed_singleton] at enough ⊢
      rw [members?_step spacing first enough spacing.last (.inr (.inr rfl))]
      rfl
    · rw [List.map_cons, listed_cons _ _ (by simpa using alone)] at enough ⊢
      rw [List.length_append, List.length_cons, List.length_append] at enough
      have later := ih alone each fuel (by omega)
      obtain ⟨more, starts⟩ := starts_members spacing write alone
      rw [starts, List.cons_append] at later
      have step :=
        members?_step spacing first (by omega : (memberText spacing write member).length ≤ fuel + 1) .none (.inl rfl)
        (spacing.next.val ++ ('"' :: (more ++ (spacing.last.val ++ '}' :: rest))))
      rw [List.append_assoc, List.cons_append, List.append_assoc, starts, List.cons_append]
      refine step.trans ?_
      simp only [skip?_blanks spacing.next (rfl : isBlank '"' = false), Option.bind_eq_bind, Option.bind_some]
      exact congrArg (Option.bind · fun found => some (memberAsRead read member :: found.1, found.2)) later

def objectText (texts : List (List Char)) : List Char :=
  '{' :: (spacing.first.val ++ (listed spacing.next texts ++ (spacing.last.val ++ ['}'])))

theorem readsAs_object (some_member : members ≠ [])
    (each : ∀ member ∈ members, ReadsAs (write member.2) (read member.2)) :
    ReadsAs (objectText spacing (members.map (memberText spacing write)))
      (.object (members.map (memberAsRead read))) := by
  refine ⟨⟨'{', _, rfl, rfl, by decide⟩, ?_⟩
  intro fuel enough rest _
  rw [objectText, List.length_cons, List.length_append, List.length_append] at enough
  obtain ⟨fuel, rfl⟩ : ∃ k, fuel = k + 1 := ⟨fuel - 1, by omega⟩
  have inner := members?_listed spacing some_member each fuel (by omega) rest
  obtain ⟨more, starts⟩ := starts_members spacing write some_member
  simp only [objectText, List.cons_append, List.append_assoc, List.nil_append]
  rw [starts, List.cons_append] at inner ⊢
  rw [value?]
  simp only [skip?_blanks spacing.first (rfl : isBlank '"' = false), Option.bind_eq_bind, Option.bind_some]
  exact congrArg (Option.bind · fun found => some (Json.object found.1, found.2)) inner

theorem readsAs_empty_object : ReadsAs ['{', '}'] (.object []) := by
  refine ⟨⟨'{', _, rfl, rfl, by decide⟩, ?_⟩
  intro fuel enough rest _
  obtain ⟨fuel, rfl⟩ : ∃ k, fuel = k + 1 := ⟨fuel - 1, by rw [List.length_cons] at enough; omega⟩
  simp [value?, skip?_of_not_blank (rfl : isBlank '}' = false)]

end

/-! ## Whole texts -/

theorem parse?_of_readsAs {text : String} {read : Json} (reads : ReadsAs text.toList read)
    (gap : Blanks) {whole : String}
    (chars : whole.toList = text.toList ++ gap.val) : parse? .plain whole = some read := by
  obtain ⟨c, more, starts, begins, -⟩ := reads.starts
  have ends : EndsNumber gap.val := endsNumber_of_head? fun c next => .inl (gap.property c (List.mem_of_mem_head? next))
  have value :=
    reads.reads (by rw [chars, List.length_append]; omega : text.toList.length ≤ whole.toList.length + 1) ends
  rw [parse?]
  rw [chars] at value ⊢
  rw [starts, List.cons_append] at value ⊢
  simp only [skip?_of_not_blank begins, Option.bind_eq_bind, Option.bind_some, value, skip?_all]
  rfl

end ScriptLoader.Json
