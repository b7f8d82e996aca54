import ScriptLoader.Proofs.ByteTexts
import ScriptLoader.Url.File
import Mathlib.Data.List.TakeWhile

/-!
The way from a path to its URL and back. Percent-encoding is undone byte by byte, and what it writes has no
meaning of its own in a URL, so that the URL of a rooted path names this path.
-/

set_option autoImplicit false
namespace ScriptLoader

theorem Text.Utf8.encode_ofList_ascii {chars : List Char} (small : ∀ c ∈ chars, c.toNat < 0x80) :
    encode (String.ofList chars) = chars.map Url.byte := by
  rw [encode, String.toList_ofList]
  induction chars with
  | nil => rfl
  | cons c rest ih =>
    obtain ⟨first, others⟩ := List.forall_mem_cons.mp small
    have plain : isStray c = false := by
      rw [← Char.ofNat_toNat c]
      exact not_isStray_small first
    have one : String.utf8EncodeChar c = [Url.byte c] := if_pos (Nat.le_of_lt_succ first)
    rw [List.flatMap_cons, ih others, encodeChar, plain, if_neg Bool.false_ne_true, one]
    rfl

namespace Url

theorem forall_byte {P : UInt8 → Prop} (each : ∀ n : Fin 256, P (UInt8.ofNat n)) (b : UInt8) : P b := by
  have here := each ⟨b.toNat, b.toNat_lt⟩
  rwa [UInt8.ofNat_toNat] at here

def escapedByte (b : UInt8) : List Char := if isPathByte b then [Char.ofNat b.toNat] else escapeByte b

theorem escapePath_append (path more : List UInt8) : escapePath (path ++ more) = escapePath path ++ escapePath more :=
  List.flatMap_append

/-- What percent-encoding writes is visible ASCII, and neither begins a query nor a fragment. -/
theorem of_mem_escapePath {path : List UInt8} {c : Char} (mem : c ∈ escapePath path) :
    c.toNat < 0x80 ∧ c ≠ '#' ∧ byte c ≠ byte '?' ∧ isControl (byte c) = false := by
  obtain ⟨b, -, mem⟩ := List.mem_flatMap.mp mem
  have each : ∀ b, (escapedByte b).all
      (fun c => c.toNat < 0x80 ∧ c ≠ '#' ∧ byte c ≠ byte '?' ∧ isControl (byte c) = false) = true :=
    forall_byte (by decide +kernel)
  exact of_decide_eq_true (List.all_eq_true.mp (each b) c mem)

theorem unescape_cons {b : UInt8} (plain : b ≠ percent) (rest : List UInt8) :
    unescape (b :: rest) = (unescape rest).map (b :: ·) := by
  match rest with
  | [] => simp [unescape, plain, Except.map]
  | [c] => simp [unescape, plain]
  | c :: d :: rest => rw [unescape, if_neg plain]

theorem unescape_percent {high low value : UInt8} (digits : hexByte? high low = some value) (rest : List UInt8) :
    unescape (percent :: high :: low :: rest) = (unescape rest).map (value :: ·) := by
  rw [unescape, if_pos rfl, digits]

theorem unescape_escapedByte (b : UInt8) (rest : List UInt8) :
    unescape ((escapedByte b).map byte ++ rest) = (unescape rest).map (b :: ·) := by
  have plain : ∀ b, isPathByte b = true → byte (Char.ofNat b.toNat) = b ∧ b ≠ percent := forall_byte (by decide +kernel)
  have digits : ∀ b : UInt8, hexByte? (byte (hexDigit (b >>> 4))) (byte (hexDigit (b &&& 15))) = some b :=
    forall_byte (by decide +kernel)
  unfold escapedByte
  split
  next itself =>
    obtain ⟨same, not_percent⟩ := plain b itself
    rw [List.map_singleton, same, List.singleton_append, unescape_cons not_percent]
  next => exact unescape_percent (digits b) rest

theorem unescape_escapePath (path : List UInt8) : unescape ((escapePath path).map byte) = .ok path := by
  induction path with
  | nil => rfl
  | cons b rest ih =>
    have first : (escapePath (b :: rest)).map byte = (escapedByte b).map byte ++ (escapePath rest).map byte := by
      rw [escapePath, List.flatMap_cons, List.map_append]
      rfl
    rw [first, unescape_escapedByte, ih]
    rfl

theorem cut_of_not_mem {b : UInt8} {text : List UInt8} (absent : b ∉ text) : cut b text = (text, []) := by
  have all : ∀ c ∈ text, decide (c ≠ b) = true := fun c mem => decide_eq_true fun same => absent (same ▸ mem)
  rw [cut, List.takeWhile_eq_self_iff.mpr all, List.dropWhile_eq_nil_iff.mpr all, List.drop_nil]

theorem scheme?_file (rest : List UInt8) :
    scheme? (FileUrl.bytes "file:" ++ rest) = .ok (FileUrl.bytes "file", rest) := rfl

/-- After two slashes a third one ends the host before it has begun. -/
theorem parseRest_file {query path written : List UInt8} (back : unescape (byte '/' :: written) = .ok path) :
    parseRest (FileUrl.bytes "file") query (byte '/' :: byte '/' :: byte '/' :: written) =
      .ok ⟨FileUrl.bytes "file", [], path, byte '/' :: written, query⟩ := by
  have slashes : 2 ≤ ((byte '/' :: byte '/' :: byte '/' :: written).takeWhile (· = byte '/')).length := by
    simp
  have authority : (byte '/' :: written).takeWhile (· ≠ byte '/') = [] := by simp
  have path_left : (byte '/' :: written).dropWhile (· ≠ byte '/') = byte '/' :: written := by simp
  rw [parseRest]
  simp only [List.head?_cons, ne_eq, not_true_eq_false, false_and, if_false, List.drop_succ_cons, List.drop_zero]
  rw [if_pos ⟨slashes, Or.inl (by decide)⟩, authority, path_left, back]
  rfl

theorem parse_file {path written : List UInt8} (visible : ∀ b ∈ written, isControl b = false)
    (no_query : byte '?' ∉ written) (back : unescape (byte '/' :: written) = .ok path) :
    parse (FileUrl.bytes "file:///" ++ written) = .ok ⟨FileUrl.bytes "file", [], path, byte '/' :: written, []⟩ := by
  have clear : (FileUrl.bytes "file:///" ++ written).any isControl = false := by
    rw [List.any_append, Bool.or_eq_false_iff]
    exact ⟨by decide, List.any_eq_false.mpr fun b mem => by simp [visible b mem]⟩
  have no_query : byte '?' ∉ byte '/' :: byte '/' :: byte '/' :: written := by
    simp only [List.mem_cons, not_or]
    exact ⟨by decide, by decide, by decide, no_query⟩
  have apart : FileUrl.bytes "file:///" ++ written =
    FileUrl.bytes "file:" ++ byte '/' :: byte '/' :: byte '/' :: written := rfl
  rw [parse, clear, if_neg Bool.false_ne_true, if_neg (by rw [apart]; nofun), apart, scheme?_file]
  dsimp only
  rw [cut_of_not_mem no_query, parseRest_file back]

end Url

namespace FileUrl

theorem toList_ofBytes (path : List UInt8) : (ofBytes path).toList = "file://".toList ++ Url.escapePath path := by
  simp [ofBytes]

theorem ofBytes_cons (path : List UInt8) :
    ofBytes (Url.byte '/' :: path) = String.ofList ("file:///".toList ++ Url.escapePath path) := by
  have slash : Url.escapePath (Url.byte '/' :: path) = '/' :: Url.escapePath path := rfl
  apply String.toList_inj.mp
  simp [toList_ofBytes, slash]

theorem toBytes_ofBytes {path : List UInt8} (rooted : path.head? = some (Url.byte '/')) :
    toBytes (ofBytes path) = .ok path := by
  obtain ⟨more, rfl⟩ := List.head?_eq_some_iff.mp rooted
  have small : ∀ c ∈ "file:///".toList ++ Url.escapePath more, c.toNat < 0x80 ∧ c ≠ '#' := by
    rw [List.forall_mem_append]
    exact ⟨by simp, fun c mem => ⟨(Url.of_mem_escapePath mem).1, (Url.of_mem_escapePath mem).2.1⟩⟩
  have no_fragment : ∀ c ∈ "file:///".toList ++ Url.escapePath more, decide (c ≠ '#') = true :=
    fun c mem => decide_eq_true (small c mem).2
  have visible : ∀ b ∈ (Url.escapePath more).map Url.byte, Url.isControl b = false := by
    rw [List.forall_mem_map]
    exact fun c mem => (Url.of_mem_escapePath mem).2.2.2
  have no_query : Url.byte '?' ∉ (Url.escapePath more).map Url.byte := by
    intro mem
    obtain ⟨c, found, same⟩ := List.mem_map.mp mem
    exact (Url.of_mem_escapePath found).2.2.1 same
  have back : Url.unescape (Url.byte '/' :: (Url.escapePath more).map Url.byte) = .ok (Url.byte '/' :: more) :=
    Url.unescape_escapePath (Url.byte '/' :: more)
  have written : Text.Utf8.encode (String.ofList ("file:///".toList ++ Url.escapePath more)) =
      bytes "file:///" ++ (Url.escapePath more).map Url.byte := by
    rw [Text.Utf8.encode_ofList_ascii fun c mem => (small c mem).1, List.map_append]
    rfl
  rw [ofBytes_cons, toBytes]
  simp only [String.toList_ofList]
  rw [List.takeWhile_eq_self_iff.mpr no_fragment, List.dropWhile_eq_nil_iff.mpr no_fragment, written,
    Url.parse_file visible no_query back]
  rfl

theorem head?_encode {path : String} (rooted : Path.isAbs path = true) :
    (Text.Utf8.encode path).head? = some (Url.byte '/') := by
  obtain ⟨rest, chars⟩ := List.head?_eq_some_iff.mp (beq_iff_eq.mp rooted)
  rw [Text.Utf8.encode, chars]
  rfl

theorem toPath_ofPath {fs : FileSystem} {path : String} (readable : Text.Utf8.Readable (fs.abs path)) :
    toPath (ofPath fs path) = .ok (fs.abs path) := by
  rw [toPath, ofPath, toBytes_ofBytes (head?_encode (fs.isAbs_abs path)), Except.map, readable]

theorem head?_of_toBytes {url : String} {path : List UInt8} (named : toBytes url = .ok path) :
    path.head? = some (Url.byte '/') := by
  unfold toBytes at named
  dsimp only at named
  split at named
  · cases named
  split at named
  · cases named
  split at named
  · cases named
  split at named
  · cases named
  split at named
  · cases named
  next rooted =>
    obtain rfl := Except.ok.inj named
    exact Decidable.not_not.mp rooted

/-- A path that a URL names is rooted, and it stands for bytes. -/
theorem of_toPath {url path : String} (named : toPath url = .ok path) :
    Path.isAbs path = true ∧ Text.Utf8.Readable path := by
  rw [toPath] at named
  cases bytes : toBytes url with
  | error e => rw [bytes] at named; cases named
  | ok found =>
    rw [bytes] at named
    obtain rfl := Except.ok.inj named
    refine ⟨?_, Text.Utf8.readable_decode found⟩
    obtain ⟨rest, rfl⟩ := List.head?_eq_some_iff.mp (head?_of_toBytes bytes)
    have chars := Text.Utf8.decodeChars_append_cons [] (b := Url.byte '/') (by decide) rest
    rw [List.nil_append] at chars
    rw [Path.isAbs, Text.Utf8.decode, String.toList_ofList, chars, Text.Utf8.decodeChars]
    rfl

theorem startsWith_ofPath (fs : FileSystem) (path : String) : Text.startsWith (ofPath fs path) "file:" = true := by
  rw [Text.startsWith, ofPath, toList_ofBytes]
  rfl

theorem suffix_ofPath {fs : FileSystem} {path ending : String}
    (plain : Url.escapePath (Text.Utf8.encode ending) = ending.toList)
    (ends : ending.toList <:+ (fs.abs path).toList) : ending.toList <:+ (ofPath fs path).toList := by
  obtain ⟨before, whole⟩ := ends
  have parts : fs.abs path = String.ofList before ++ ending := by
    apply String.toList_inj.mp
    rw [String.toList_append, String.toList_ofList, whole]
  have written : Url.escapePath (Text.Utf8.encode (fs.abs path)) =
      Url.escapePath (Text.Utf8.encode (String.ofList before)) ++ ending.toList := by
    rw [parts, Text.Utf8.encode_append, Url.escapePath_append, plain]
  have url : (ofPath fs path).toList =
      ("file://".toList ++ Url.escapePath (Text.Utf8.encode (String.ofList before))) ++ ending.toList := by
    rw [ofPath, toList_ofBytes, written, List.append_assoc]
  rewrite [url]
  exact List.suffix_append _ _

end FileUrl
end ScriptLoader
