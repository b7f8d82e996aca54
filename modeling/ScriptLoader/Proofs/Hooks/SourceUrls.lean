import ScriptLoader.Proofs.Hooks.ClaimedImports

/-!
The URLs of clean paths. Each names its path, whatever bytes the path holds, so that no two paths share a URL.
The digits of an escape are none of the letters that end the name of a source: a URL ends like a source
exactly when its path does.
-/

set_option autoImplicit false
namespace ScriptLoader

namespace Text.Utf8

/-- Bytes of ASCII are read by themselves, whatever stands before them. -/
theorem decodeChars_append_ascii (bytes : List UInt8) {ending : List UInt8} (small : ∀ b ∈ ending, b.toNat < 0x80) :
    decodeChars (bytes ++ ending) = decodeChars bytes ++ ending.map (Char.ofNat ·.toNat) := by
  induction ending generalizing bytes with
  | nil => rw [List.append_nil, List.map_nil, List.append_nil]
  | cons b rest ih =>
    obtain ⟨first, others⟩ := List.forall_mem_cons.mp small
    have nothing : decodeChars [] = [] := by rw [decodeChars]
    have alone : decodeChars rest = rest.map (Char.ofNat ·.toNat) := by
      simpa only [List.nil_append, nothing] using ih [] others
    rw [decodeChars_append_cons bytes first, alone, List.map_cons]

/-- A text ends in letters of ASCII exactly when its bytes end in theirs. -/
theorem suffix_decode_iff (bytes : List UInt8) {ending : String} (small : ∀ c ∈ ending.toList, c.toNat < 0x80) :
    ending.toList <:+ (decode bytes).toList ↔ encode ending <:+ bytes := by
  constructor
  · rintro ⟨before, whole⟩
    have parts : decode bytes = String.ofList before ++ ending := by
      apply String.toList_inj.mp
      rw [String.toList_append, String.toList_ofList, whole]
    rw [← encode_decode bytes, parts, encode_append]
    exact List.suffix_append _ _
  · rintro ⟨before, rfl⟩
    have byte : ∀ c ∈ ending.toList, (Url.byte c).toNat = c.toNat := by
      intro c mem
      have bound := small c mem
      rw [Url.byte, UInt8.toNat_ofNat']
      omega
    have written : encode ending = ending.toList.map Url.byte := by
      rw [← encode_ofList_ascii small, String.ofList_toList]
    have read : (encode ending).map (Char.ofNat ·.toNat) = ending.toList := by
      rw [written, List.map_map]
      refine (List.map_congr_left fun c mem => ?_).trans (List.map_id _)
      rw [Function.comp_apply, byte c mem, Char.ofNat_toNat]
      rfl
    have ascii : ∀ b ∈ encode ending, b.toNat < 0x80 := by
      rw [written, List.forall_mem_map]
      exact fun c mem => byte c mem ▸ small c mem
    rewrite [decode, String.toList_ofList, decodeChars_append_ascii before ascii, read]
    exact List.suffix_append _ _

end Text.Utf8

namespace Url

def escapeDigits : List Char := "0123456789ABCDEF".toList

/-- A URL's path ends in what is no digit of an escape only where the path itself does. -/
theorem suffix_of_suffix_escapePath {ending : List Char} (apart : ∀ c ∈ ending, c ∉ escapeDigits) {path : List UInt8}
    (ends : ending <:+ escapePath path) : ending.map byte <:+ path := by
  have last_digit : ∀ b : UInt8, hexDigit (b &&& 15) ∈ escapeDigits := forall_byte (by decide +kernel)
  have itself : ∀ b, isPathByte b = true → byte (Char.ofNat b.toNat) = b := forall_byte (by decide +kernel)
  induction ending using List.reverseRecOn generalizing path with
  | nil => exact List.nil_suffix
  | append_singleton before c ih =>
    obtain ⟨above, whole⟩ := ends
    rcases List.eq_nil_or_concat path with rfl | ⟨front, b, rfl⟩
    · simp [escapePath] at whole
    rw [List.concat_eq_append, escapePath_append, ← List.append_assoc] at whole
    rw [List.concat_eq_append, List.map_append]
    -- The last byte is written by itself, or else its last digit would be the last letter of the ending.
    by_cases plain : isPathByte b = true
    · have written : escapePath [b] = [Char.ofNat b.toNat] := by simp [escapePath, plain]
      rw [written] at whole
      obtain ⟨rest, same⟩ := List.append_inj' whole rfl
      obtain rfl := List.singleton_inj.mp same
      obtain ⟨left, rfl⟩ := ih (fun c mem => apart c (List.mem_append_left _ mem)) ⟨above, rest⟩
      exact ⟨left, by rw [List.map_singleton, itself b plain, List.append_assoc]⟩
    · have written : escapePath [b] = ['%', hexDigit (b >>> 4)] ++ [hexDigit (b &&& 15)] := by
        simp [escapePath, plain, escapeByte]
      rw [written, ← List.append_assoc] at whole
      obtain rfl := List.singleton_inj.mp (List.append_inj' whole rfl).2
      exact absurd (last_digit b) (apart _ (by simp))

end Url

namespace SourceName

/-- The endings of sources are written in a URL as they are, and no part of them can come from anything else. -/
theorem plain_of_mem {ending : String} (listed : ending ∈ sourceExtensions) :
    (∀ c ∈ ending.toList, c.toNat < 0x80 ∧ c ∉ Url.escapeDigits ∧ c ≠ '/') ∧
      Url.escapePath (Text.Utf8.encode ending) = ending.toList := by
  have each : sourceExtensions.all (fun ending =>
      ending.toList.all (fun c => c.toNat < 0x80 ∧ c ∉ Url.escapeDigits ∧ c ≠ '/') ∧
        Url.escapePath (Text.Utf8.encode ending) = ending.toList) = true := by
    decide +kernel
  obtain ⟨letters, written⟩ := of_decide_eq_true (List.all_eq_true.mp each ending listed)
  exact ⟨fun c mem => of_decide_eq_true (List.all_eq_true.mp letters c mem), written⟩

theorem endsLikeSource_iff {name : String} :
    endsLikeSource name = true ↔ ∃ ending ∈ sourceExtensions, ending.toList <:+ name.toList := by
  simp only [endsLikeSource, Text.endsWith, List.any_eq_true, List.isSuffixOf_iff_suffix]

end SourceName

namespace FileUrl
variable {fs : FileSystem} {path : String}

/-- What ends the URL ends the path, if no escape and no slash has a part in it. -/
theorem suffix_of_suffix_ofPath {ending : List Char} (apart : ∀ c ∈ ending, c ∉ Url.escapeDigits)
    (no_slash : '/' ∉ ending)
    (ends : ending <:+ (ofPath fs path).toList) : ending.map Url.byte <:+ Text.Utf8.encode (fs.abs path) := by
  obtain ⟨more, rooted⟩ := List.head?_eq_some_iff.mp (head?_encode (fs.isAbs_abs path))
  have slash : '/' ∈ Url.escapePath (Text.Utf8.encode (fs.abs path)) := by
    rw [rooted]
    exact List.mem_cons_self
  rw [ofPath, toList_ofBytes] at ends
  -- The slash at the front of the path is not passed, so that the ending lies within the path.
  rcases List.suffix_or_suffix_of_suffix ends (List.suffix_append _ _) with inside | beyond
  · exact Url.suffix_of_suffix_escapePath apart inside
  · exact absurd (beyond.mem slash) no_slash

theorem ends_ofPath_iff (readable : Text.Utf8.Readable (fs.abs path)) {ending : String}
    (listed : ending ∈ SourceName.sourceExtensions) :
    ending.toList <:+ (ofPath fs path).toList ↔ ending.toList <:+ (fs.abs path).toList := by
  obtain ⟨letters, plain⟩ := SourceName.plain_of_mem listed
  have small : ∀ c ∈ ending.toList, c.toNat < 0x80 := fun c mem => (letters c mem).1
  refine ⟨fun ends => ?_, suffix_ofPath plain⟩
  have bytes := suffix_of_suffix_ofPath (fun c mem => (letters c mem).2.1) (fun mem => (letters _ mem).2.2 rfl) ends
  rw [← Text.Utf8.encode_ofList_ascii small, String.ofList_toList] at bytes
  rw [← readable]
  exact (Text.Utf8.suffix_decode_iff _ small).mpr bytes

end FileUrl

namespace Loader

/-- A loader compiles what the URL of a file names exactly when the path ends like a source. -/
theorem concerns_ofPath_iff {fs : FileSystem} {path : String} (readable : Text.Utf8.Readable (fs.abs path)) :
    concerns (FileUrl.ofPath fs path) = true ↔ SourceName.endsLikeSource (fs.abs path) = true := by
  rw [concerns, FileUrl.startsWith_ofPath, Bool.true_and, SourceName.endsLikeSource_iff, SourceName.endsLikeSource_iff]
  exact exists_congr fun ending => and_congr_right fun listed => FileUrl.ends_ofPath_iff readable listed

end Loader

theorem FileSystem.abs_eq_self (fs : FileSystem) {path : String} (rooted : Path.isAbs path = true)
    (cleaned : Path.clean path = path) : fs.abs path = path := by
  rw [abs, Path.abs, if_pos rooted, cleaned]

namespace FileUrl

theorem toBytes_ofPath (fs : FileSystem) {bytes : List UInt8} (rooted : Path.isAbs (Text.Utf8.decode bytes) = true)
    (cleaned : Path.clean (Text.Utf8.decode bytes) = Text.Utf8.decode bytes) :
    toBytes (ofPath fs (Text.Utf8.decode bytes)) = .ok bytes := by
  have slash := head?_encode rooted
  rw [Text.Utf8.encode_decode] at slash
  rw [ofPath, fs.abs_eq_self rooted cleaned, Text.Utf8.encode_decode, toBytes_ofBytes slash]

/-- The URL of a clean rooted path, whatever bytes the path holds: it names the path, no other clean rooted
path has it, and a loader compiles what it names exactly when the path ends like a source. -/
theorem ofPath_names_clean_path (fs : FileSystem) {bytes : List UInt8}
    (rooted : Path.isAbs (Text.Utf8.decode bytes) = true)
    (cleaned : Path.clean (Text.Utf8.decode bytes) = Text.Utf8.decode bytes) :
    let path := Text.Utf8.decode bytes
    let url := ofPath fs path
    toPath url = .ok path ∧ toBytes url = .ok bytes ∧
    (∀ (fs' : FileSystem) (bytes' : List UInt8), Path.isAbs (Text.Utf8.decode bytes') = true →
      Path.clean (Text.Utf8.decode bytes') = Text.Utf8.decode bytes' →
      ofPath fs' (Text.Utf8.decode bytes') = url → bytes' = bytes) ∧
    (Loader.concerns url = true ↔ SourceName.endsLikeSource path = true) ∧
    (SourceName.endsLikeSource path = true ↔
      ∃ ending ∈ [".ts", ".mts", ".cts"], Text.Utf8.encode ending <:+ bytes) := by
  intro path url
  have named : toBytes url = .ok bytes := toBytes_ofPath fs rooted cleaned
  have here : fs.abs path = path := fs.abs_eq_self rooted cleaned
  have readable : Text.Utf8.Readable (fs.abs path) := by
    rw [here]
    exact Text.Utf8.readable_decode bytes
  refine ⟨by rw [toPath, named]; rfl, named, ?_, ?_, ?_⟩
  · intro fs' bytes' rooted' cleaned' same
    have named' : toBytes url = .ok bytes' := same ▸ toBytes_ofPath fs' rooted' cleaned'
    exact Except.ok.inj (named'.symm.trans named)
  · rw [Loader.concerns_ofPath_iff readable, here]
  · rw [SourceName.endsLikeSource_iff]
    refine exists_congr fun ending => and_congr_right fun listed => ?_
    exact Text.Utf8.suffix_decode_iff bytes fun c mem => ((SourceName.plain_of_mem listed).1 c mem).1

/-- The bytes of a rooted path: the first after the slash belongs to no character, and the second begins a
fragment in a URL. -/
def strayName : List UInt8 := [0x2F, 0xFF, 0x23, 0x2E, 0x6D, 0x74, 0x73]

theorem decode_strayName :
    Text.Utf8.decode strayName = String.ofList ('/' :: Text.Utf8.stray 0xFF :: "#.mts".toList) := by
  have no_character : Text.Utf8.decodeChars [0xFF] = [Text.Utf8.stray 0xFF] := by
    rw [Text.Utf8.decodeChars]
    split
    next found => cases found
    next => rw [Text.Utf8.decodeChars]
  have front : Text.Utf8.decodeChars [0x2F, 0xFF] = ['/', Text.Utf8.stray 0xFF] := by
    have read := Text.Utf8.decodeChars_append_cons [] (b := 0x2F) (by decide) [0xFF]
    rw [no_character, Text.Utf8.decodeChars] at read
    exact read
  have small : ∀ b ∈ ([0x23, 0x2E, 0x6D, 0x74, 0x73] : List UInt8), b.toNat < 0x80 := by simp
  have whole := Text.Utf8.decodeChars_append_ascii [0x2F, 0xFF] small
  rw [front] at whole
  exact congrArg String.ofList whole

/-- The URL of such a path shows both bytes by their numbers, and the ending as it is. -/
theorem ofPath_strayName :
    let path := Text.Utf8.decode strayName
    ofPath Loader.workshop.fs path = "file:///%FF%23.mts" ∧ toPath "file:///%FF%23.mts" = .ok path ∧
      Loader.concerns "file:///%FF%23.mts" = true := by
  intro path
  have text : path = String.ofList ('/' :: Text.Utf8.stray 0xFF :: "#.mts".toList) := decode_strayName
  have rooted : Path.isAbs path = true := by
    rw [text]
    decide +kernel
  have cleaned : Path.clean path = path := by
    rw [text]
    decide +kernel
  have written : ofPath Loader.workshop.fs path = "file:///%FF%23.mts" := by
    rw [text]
    decide +kernel
  have source : SourceName.endsLikeSource path = true := by
    rw [text]
    decide +kernel
  obtain ⟨named, -, -, concerned, -⟩ := ofPath_names_clean_path Loader.workshop.fs rooted cleaned
  rw [written] at named concerned
  exact ⟨written, named, concerned.mpr source⟩

end FileUrl
end ScriptLoader
