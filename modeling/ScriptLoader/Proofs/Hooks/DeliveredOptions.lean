import ScriptLoader.Bundler.Engine
import ScriptLoader.Bundler.Script
import ScriptLoader.Hooks.Loader
import ScriptLoader.Proofs.ByteTexts
import Mathlib.Algebra.Group.Nat.Defs

/-!
Options on their way to a loader. A text of fewer than `2 ^ 32` bytes is read back, whichever of the four
forms its size asks for, and the bytes that follow are left as they are. The size of a longer one is written
modulo `2 ^ 32`, so that its end is lost.
-/

set_option autoImplicit false
namespace ScriptLoader

/-! ## Numbers, texts and flags -/

namespace MessagePack
variable {content : List UInt8}

theorem take?_append {count : Nat} (length : content.length = count) (rest : List UInt8) :
    take? count (content ++ rest) = some (content, rest) := by
  subst length
  simp [take?]

theorem length_ofNumber (width n : Nat) : (ofNumber width n).length = width := by
  induction width generalizing n with
  | zero => rfl
  | succ width ih => simp [ofNumber, ih]

theorem number_concat (bytes : List UInt8) (b : UInt8) : number (bytes ++ [b]) = number bytes * 256 + b.toNat := by
  simp [number]

theorem number_ofNumber (width n : Nat) : number (ofNumber width n) = n % 256 ^ width := by
  induction width generalizing n with
  | zero => simp [ofNumber, number, Nat.mod_one]
  | succ width ih =>
    have last : (UInt8.ofNat n).toNat = n % 256 := UInt8.toNat_ofNat'
    rw [ofNumber, number_concat, ih, last, Nat.pow_succ, Nat.mul_comm (256 ^ width) 256, Nat.mod_mul]
    omega

theorem number?_ofNumber (width n : Nat) (rest : List UInt8) :
    number? width (ofNumber width n ++ rest) = some (n % 256 ^ width, rest) := by
  rw [number?, take?_append (length_ofNumber width n), Option.map_some]
  dsimp only
  rw [number_ofNumber]

def sizes : Nat := 0x100000000

/-- The part of a text that its size counts. -/
def counted (content : List UInt8) : List UInt8 := content.take (content.length % sizes)

theorem counted_eq_self {content : List UInt8} : counted content = content ↔ content.length < sizes := by
  rw [counted, List.take_eq_self_iff]
  constructor
  · intro whole
    exact Nat.lt_of_le_of_lt whole (Nat.mod_lt _ (by decide))
  · intro fits
    rw [Nat.mod_eq_of_lt fits]

theorem text?_sized {first : UInt8} {width : Nat} (form : (first, width) ∈ [(0xD9, 1), (0xDA, 2), ((0xDB : UInt8), 4)])
    (counts : content.length % 256 ^ width = content.length % sizes) (rest : List UInt8) :
    ∃ left, text? (first :: ofNumber width content.length ++ content ++ rest) = some (some (counted content), left) ∧
      (content.length < sizes → left = rest) := by
  have size := number?_ofNumber width content.length (content ++ rest)
  have part : content.length % sizes ≤ content.length := Nat.mod_le _ _
  rw [counts] at size
  have taken : take? (content.length % sizes) (content ++ rest) =
      some (counted content, content.drop (content.length % sizes) ++ rest) := by
    rw [take?, if_pos (by rw [List.length_append]; omega), List.take_append_of_le_length part,
      List.drop_append_of_le_length part, counted]
  refine ⟨content.drop (content.length % sizes) ++ rest, ?_, ?_⟩
  · rw [List.append_assoc, List.cons_append]
    simp only [List.mem_cons, List.not_mem_nil, or_false, Prod.mk.injEq] at form
    rcases form with ⟨rfl, rfl⟩ | ⟨rfl, rfl⟩ | ⟨rfl, rfl⟩ <;> simp [text?, size, taken]
  · intro fits
    rw [Nat.mod_eq_of_lt fits, List.drop_length, List.nil_append]

theorem text?_short (short : content.length < 32) (rest : List UInt8) :
    text? (UInt8.ofNat (0xA0 + content.length) :: content ++ rest) = some (some content, rest) := by
  have first : (UInt8.ofNat (0xA0 + content.length)).toNat = 0xA0 + content.length := by
    rw [UInt8.toNat_ofNat']
    omega
  simp only [List.cons_append, text?, first]
  rw [if_neg (by omega), if_pos (by omega), Nat.add_sub_cancel_left, take?_append rfl]
  rfl

/-- A text is read back as far as its size counts it, in whichever form the size is written. -/
theorem text?_ofText (content rest : List UInt8) :
    ∃ left, text? (ofText content ++ rest) = some (some (counted content), left) ∧
      (content.length < sizes → left = rest) := by
  unfold ofText
  dsimp only
  -- The sizes part at 32, 256 and 65536, and the last form is left with those that it has no room for.
  split
  next short =>
    have fits : content.length < sizes := Nat.lt_trans short (by decide)
    exact ⟨rest, by rw [counted_eq_self.mpr fits]; exact text?_short short rest, fun _ => rfl⟩
  have small {width : Nat} (fits : content.length < 256 ^ width) (room : 256 ^ width ≤ sizes) :
      content.length % 256 ^ width = content.length % sizes := by
    rw [Nat.mod_eq_of_lt fits, Nat.mod_eq_of_lt (Nat.lt_of_lt_of_le fits room)]
  split
  next one => exact text?_sized (by decide) (small one (by decide)) rest
  split
  next two => exact text?_sized (by decide) (small two (by decide)) rest
  · exact text?_sized (by decide) rfl rest

theorem text?_ofText_of_lt (fits : content.length < sizes) (rest : List UInt8) :
    text? (ofText content ++ rest) = some (some content, rest) := by
  obtain ⟨left, read, whole⟩ := text?_ofText content rest
  rw [read, whole fits, counted_eq_self.mpr fits]

theorem flag?_ofFlag (value : Bool) (rest : List UInt8) : flag? (ofFlag value ++ rest) = some (some value, rest) := by
  cases value <;> rfl

theorem mapSize?_short {count : Nat} (few : count < 16) (rest : List UInt8) :
    mapSize? (UInt8.ofNat (0x80 + count) :: rest) = some (count, rest) := by
  have first : (UInt8.ofNat (0x80 + count)).toNat = 0x80 + count := by
    rw [UInt8.toNat_ofNat']
    omega
  simp only [mapSize?, first]
  rw [if_pos (by omega), Nat.add_sub_cancel_left]

end MessagePack

/-! ## The members of the map -/

namespace LoaderOptions
open MessagePack
variable {o : LoaderOptions}

theorem readMembers_check (count : Nat) (value : Bool) (rest : List UInt8) :
    readMembers (count + 1) o (ofText checkName ++ ofFlag value ++ rest) =
      readMembers count { o with check := some value } rest := by
  have name : text? (ofText checkName ++ (ofFlag value ++ rest)) = some (some checkName, ofFlag value ++ rest) :=
    text?_ofText_of_lt (by decide) _
  simp [readMembers, name, readCheck, flag?_ofFlag]

/-- Nothing is read behind the last member, so that it makes no difference what its size leaves out. -/
theorem readMembers_defaults (o : LoaderOptions) (content : List UInt8) :
    readMembers 1 o (ofText defaultsName ++ ofText content) =
      some { o with defaults := Text.Utf8.decode (counted content) } := by
  have name : text? (ofText defaultsName ++ ofText content) = some (some defaultsName, ofText content) :=
    text?_ofText_of_lt (by decide) _
  have other : defaultsName ≠ checkName := by decide
  obtain ⟨left, read, -⟩ := text?_ofText content []
  rw [List.append_nil] at read
  simp [readMembers, name, other, readDefaults, read]

theorem decode_nil : Text.Utf8.decode [] = "" := by
  simp [Text.Utf8.decode, Text.Utf8.decodeChars]

def delivered (o : LoaderOptions) : LoaderOptions :=
  { o with defaults := Text.Utf8.decode (counted (Text.Utf8.encode o.defaults)) }

theorem delivered_decode (check : Option Bool) (defaults : List UInt8) :
    delivered ⟨check, Text.Utf8.decode defaults⟩ = ⟨check, Text.Utf8.decode (counted defaults)⟩ := by
  rw [delivered, Text.Utf8.encode_decode]

/-- The members that are written are read back, and what is left out was not set. -/
theorem readMembers_payloadMembers (o : LoaderOptions) :
    readMembers o.payloadMembers.length {} o.payloadMembers.flatten = some o.delivered := by
  obtain ⟨check, defaults⟩ := o
  have with_check (count : Nat) (value : Bool) (rest : List UInt8) :
      readMembers (count + 1) {} (ofText checkName ++ ofFlag value ++ rest) =
        readMembers count { check := some value } rest := readMembers_check count value rest
  have nothing : delivered ⟨check, ""⟩ = ⟨check, ""⟩ := by
    rw [← decode_nil, delivered_decode]
    rfl
  cases check with
  | none =>
    by_cases unset : defaults = ""
    · subst unset
      simp [payloadMembers, nothing, readMembers]
    · simpa [payloadMembers, unset, delivered] using readMembers_defaults {} (Text.Utf8.encode defaults)
  | some value =>
    by_cases unset : defaults = ""
    · subst unset
      simpa [payloadMembers, nothing, readMembers] using with_check 0 value []
    · have both := with_check 1 value (ofText defaultsName ++ ofText (Text.Utf8.encode defaults))
      rw [readMembers_defaults] at both
      simpa [payloadMembers, unset, delivered] using both

theorem ofPayload?_toPayload (o : LoaderOptions) : ofPayload? o.toPayload = some o.delivered := by
  have few : o.payloadMembers.length < 16 := by
    unfold payloadMembers
    cases o.check <;> by_cases unset : o.defaults = "" <;> simp [unset]
  have some_map : ¬ (o.toPayload = [] ∨ o.toPayload.head? = some 0xC0) := by
    rintro (nothing | nil)
    · cases nothing
    · have first := congrArg UInt8.toNat (Option.some.inj nil)
      rw [UInt8.toNat_ofNat'] at first
      have bound : (0xC0 : UInt8).toNat = 0xC0 := rfl
      omega
  rw [ofPayload?, if_neg some_map, toPayload, mapSize?_short few]
  exact o.readMembers_payloadMembers

end LoaderOptions

/-! ## Registration -/

namespace Chain
open MessagePack (counted sizes counted_eq_self)

theorem value_register (chain : Chain) (engine : Engine) (options : LoaderOptions) :
    let loader : Loader := ⟨engine, some options.delivered⟩
    (chain.register engine options).value = .ok (chain.push loader.hooks, loader) := by
  intro loader
  rw [register, registerLoader, enroll, Run.value_bind, Loader.init, options.ofPayload?_toPayload]
  rfl

/-- A loader that is registered has its hooks in front of the chain, and of its options the defaults as far as
their size counts them. So they arrive as they are where they have fewer than `2 ^ 32` bytes, and otherwise
never. Of options that arrive no others have the same payload; in particular an option that is not set is told
apart from one that is off. -/
theorem register_delivers_options (chain : Chain) (engine : Engine) (check : Option Bool) (defaults : List UInt8) :
    let options : LoaderOptions := ⟨check, Text.Utf8.decode defaults⟩
    let loader : Loader := ⟨engine, some ⟨check, Text.Utf8.decode (defaults.take (defaults.length % 0x100000000))⟩⟩
    (chain.register engine options).value = .ok (chain.push loader.hooks, loader) ∧
    (loader.options = some options ↔ defaults.length < 0x100000000) ∧
    (defaults.length < 0x100000000 → ∀ (check' : Option Bool) (defaults' : List UInt8), defaults'.length < 0x100000000 →
      LoaderOptions.toPayload ⟨check', Text.Utf8.decode defaults'⟩ = options.toPayload →
        check' = check ∧ defaults' = defaults) := by
  intro options loader
  have arrives : options.delivered = ⟨check, Text.Utf8.decode (counted defaults)⟩ :=
    LoaderOptions.delivered_decode check defaults
  refine ⟨?_, ?_, ?_⟩
  · have registered := chain.value_register engine options
    rwa [arrives] at registered
  · have whole : Text.Utf8.decode (counted defaults) = Text.Utf8.decode defaults ↔ counted defaults = defaults :=
      ⟨Text.Utf8.decode_injective, congrArg Text.Utf8.decode⟩
    have same : loader.options = some options ↔ Text.Utf8.decode (counted defaults) = Text.Utf8.decode defaults := by
      simp [loader, options, counted, sizes]
    rw [same, whole, counted_eq_self, sizes]
  · intro fits check' defaults' fits' same
    have arrives' := LoaderOptions.delivered_decode check' defaults'
    have read := (LoaderOptions.ofPayload?_toPayload ⟨check', Text.Utf8.decode defaults'⟩).symm
    rw [same, options.ofPayload?_toPayload, arrives, arrives', counted_eq_self.mpr fits,
      counted_eq_self.mpr fits', Option.some.injEq, LoaderOptions.mk.injEq] at read
    exact ⟨read.1, Text.Utf8.decode_injective read.2⟩

/-- Bytes that are no text, and so many of them that their number takes four bytes. -/
theorem register_strayDefaults :
    let defaults := List.replicate 0x10000 (0xFF : UInt8)
    let options : LoaderOptions := ⟨none, Text.Utf8.decode defaults⟩
    defaults.length < 0x100000000 ∧
      ∃ ready, (Chain.register {} (Bundler.ofScript .null).engine options).value = .ok ready ∧
        ready.2.options = some options := by
  intro defaults options
  have fits : defaults.length < 0x100000000 := by
    rw [List.length_replicate]
    decide
  obtain ⟨registered, arrives, -⟩ := register_delivers_options {} (Bundler.ofScript .null).engine none defaults
  exact ⟨fits, _, registered, arrives.mpr fits⟩

/-- Of `2 ^ 32` bytes none arrives. -/
theorem register_lostDefaults :
    let defaults := List.replicate 0x100000000 (0x61 : UInt8)
    let options : LoaderOptions := ⟨none, Text.Utf8.decode defaults⟩
    ∃ ready, (Chain.register {} (Bundler.ofScript .null).engine options).value = .ok ready ∧
      ready.2.options = some ⟨none, ""⟩ ∧ ready.2.options ≠ some options := by
  intro defaults options
  have size : defaults.length = 0x100000000 := List.length_replicate
  have nothing : counted defaults = [] := by
    rw [counted, size]
    rfl
  have arrives : options.delivered = ⟨none, ""⟩ := by
    rw [LoaderOptions.delivered_decode, nothing, LoaderOptions.decode_nil]
  have some_bytes : Text.Utf8.decode defaults ≠ Text.Utf8.decode [] := by
    intro same
    rw [Text.Utf8.decode_injective same] at size
    cases size
  refine ⟨_, value_register {} _ options, congrArg some arrives, fun same => some_bytes ?_⟩
  rw [arrives] at same
  rw [LoaderOptions.decode_nil]
  exact (congrArg LoaderOptions.defaults (Option.some.inj same)).symm

end Chain
end ScriptLoader
