import ScriptLoader.Proofs.Locations
import ScriptLoader.SourceName

/-! The extension of a path, which is that of its last name, and the names of scripts. -/

set_option autoImplicit false
namespace ScriptLoader

namespace Path

theorem exists_last (p : String) :
    '/' ∉ (splitLast p).2.toList ∧ (p = (splitLast p).2 ∨ ∃ above, p = above ++ "/" ++ (splitLast p).2) := by
  by_cases slash : '/' ∈ p.toList
  · obtain ⟨above, last, chars, absent⟩ := Text.exists_last_of_mem slash
    rw [splitLast_of_append chars absent, String.toList_ofList]
    refine ⟨absent, .inr ⟨String.ofList above, String.toList_inj.mp ?_⟩⟩
    simp [chars]
  · rw [splitLast_of_not_mem slash]
    exact ⟨slash, .inl rfl⟩

theorem ext_splitLast (p : String) : ext (splitLast p).2 = ext p := by
  rw [ext, splitLast_of_not_mem (exists_last p).1, ← ext]

theorem proper_of_ext {p : String} (some_text : ext p ≠ "") (not_dot : ext p ≠ ".") : Proper (splitLast p).2 := by
  rw [← ext_splitLast] at some_text not_dot
  refine ⟨?_, ?_, ?_, (exists_last p).1⟩ <;> intro same <;> rw [same] at some_text not_dot
  · exact some_text (by decide)
  · exact not_dot (by decide)
  · exact not_dot (by decide)

theorem splitLast_append_name {name : String} (no_slash : '/' ∉ name.toList) (before : String) :
    (splitLast (before ++ "/" ++ name)).2 = name := by
  have chars : (before ++ "/" ++ name).toList = before.toList ++ '/' :: name.toList := by simp
  rw [splitLast_of_append chars no_slash, String.ofList_toList]

theorem ext_append_name {name : String} (no_slash : '/' ∉ name.toList) (before : String) :
    ext (before ++ "/" ++ name) = ext name := by
  rw [← ext_splitLast, splitLast_append_name no_slash]

theorem splitLast_ofComponents (names : List String) {last : String} (no_slash : '/' ∉ last.toList) :
    (splitLast (ofComponents true (names ++ [last]))).2 = last := by
  obtain ⟨before, whole⟩ : ∃ before, ofComponents true (names ++ [last]) = before ++ "/" ++ last := by
    by_cases alone : names = []
    · exact ⟨"", by simp [ofComponents, alone]⟩
    · refine ⟨"/" ++ String.intercalate "/" names, ?_⟩
      rw [ofComponents, if_pos rfl, String.intercalate_append_of_ne_nil alone (by simp), String.intercalate_singleton]
      simp only [String.append_assoc]
  rw [whole, splitLast_append_name no_slash]

theorem ext_ofComponents (names : List String) {last : String} (no_slash : '/' ∉ last.toList) :
    ext (ofComponents true (names ++ [last])) = ext last := by
  rw [← ext_splitLast, splitLast_ofComponents names no_slash]

theorem splitLast_append (p : String) {ending : String} (no_slash : '/' ∉ ending.toList) :
    (splitLast (p ++ ending)).2 = (splitLast p).2 ++ ending := by
  have clear : ∀ c ∈ ending.toList.reverse, decide (c ≠ '/') = true := by
    intro c mem
    exact decide_eq_true fun same => no_slash (same ▸ List.mem_reverse.mp mem)
  apply String.toList_inj.mp
  simp only [splitLast, String.toList_append, String.toList_ofList, List.reverse_append,
    List.takeWhile_append_of_pos clear, List.reverse_reverse]

theorem ext_append (p : String) {ending : String} {rest : List Char} (dot : ending.toList = '.' :: rest)
    (no_slash : '/' ∉ ending.toList) (no_dot : '.' ∉ rest) : ext (p ++ ending) = ending := by
  have clear : ∀ c ∈ rest.reverse, decide (c ≠ '.') = true := by
    intro c mem
    exact decide_eq_true fun same => no_dot (same ▸ List.mem_reverse.mp mem)
  apply String.toList_inj.mp
  simp only [ext, splitLast_append p no_slash, String.toList_append, dot]
  rw [if_pos (by simp), String.toList_ofList, List.reverse_append, List.reverse_cons, List.append_assoc,
    List.takeWhile_append_of_pos clear]
  simp

/-- The last name of a rooted path is its last component if it stands for itself, and the others are those of
its directory. -/
theorem clean_of_last {p above name : String} (rooted : isAbs p = true) (whole : p = above ++ "/" ++ name)
    (proper : Proper name) :
    ∃ names, AllProper (names ++ [name]) ∧ clean p = ofComponents true (names ++ [name]) ∧
      dir p = ofComponents true names := by
  have pieces : Text.pieces p '/' = Text.pieces above '/' ++ [name] := by
    rw [whole, pieces_append, Text.pieces_of_not_mem proper.no_slash]
  have parts : components p = ((Text.pieces above '/').foldl (push true) []).reverse ++ [name] := by
    rw [components, rooted, pieces, reduce, List.foldl_append, List.foldl_cons, List.foldl_nil, proper.push,
      List.reverse_cons]
  refine ⟨_, ?_, ?_, dir_of_pieces rooted pieces⟩
  · rw [← parts]
    exact proper_of_mem_components rooted
  · rw [clean, rooted, parts]

/-- Wherever a path is seen from, its last name stays if it stands for itself, and a rooted path stays in its
directory. -/
theorem exists_names_abs {cwd p : String} (here : isAbs cwd = true) (proper : Proper (splitLast p).2) :
    ∃ names, AllProper (names ++ [(splitLast p).2]) ∧ abs cwd p = ofComponents true (names ++ [(splitLast p).2]) ∧
      (isAbs p = true → dir p = ofComponents true names) := by
  by_cases rooted : isAbs p = true
  · obtain ⟨above, whole⟩ : ∃ above, p = above ++ "/" ++ (splitLast p).2 := by
      rcases (exists_last p).2 with same | found
      · have slash : '/' ∈ p.toList := List.mem_of_mem_head? (by simpa [isAbs] using rooted)
        rw [same] at slash
        exact absurd slash (exists_last p).1
      · exact found
    obtain ⟨names, all, cleaned, above_it⟩ := clean_of_last rooted whole proper
    exact ⟨names, all, by rw [abs, if_pos rooted, cleaned], fun _ => above_it⟩
  · obtain ⟨above, whole⟩ : ∃ above, cwd ++ "/" ++ p = above ++ "/" ++ (splitLast p).2 := by
      rcases (exists_last p).2 with same | ⟨above, found⟩
      · exact ⟨cwd, congrArg (cwd ++ "/" ++ ·) same⟩
      · exact ⟨cwd ++ "/" ++ above, by simpa only [String.append_assoc] using congrArg (cwd ++ "/" ++ ·) found⟩
    have some_text : p ≠ "" := by
      rintro rfl
      exact proper.some_text (by decide)
    have joined := abs_relative here (by simpa using rooted) some_text
    obtain ⟨names, all, cleaned, -⟩ := clean_of_last (isAbs_append (isAbs_append here _) _) whole proper
    exact ⟨names, all, by rw [joined, cleaned], fun is_rooted => absurd is_rooted rooted⟩

theorem splitLast_abs {cwd p : String} (here : isAbs cwd = true) (proper : Proper (splitLast p).2) :
    (splitLast (abs cwd p)).2 = (splitLast p).2 := by
  obtain ⟨names, -, whole, -⟩ := exists_names_abs here proper
  rw [whole, splitLast_ofComponents names proper.no_slash]

theorem ext_abs {cwd p : String} (here : isAbs cwd = true) (proper : Proper (splitLast p).2) :
    ext (abs cwd p) = ext p := by
  rw [← ext_splitLast, splitLast_abs here proper, ext_splitLast]

theorem dir_abs {cwd p : String} (here : isAbs cwd = true) (rooted : isAbs p = true) (proper : Proper (splitLast p).2) :
    dir (abs cwd p) = dir p := by
  obtain ⟨names, all, whole, above⟩ := exists_names_abs here proper
  rw [whole, dir_ofComponents all, above rooted]

theorem ext_isSuffix_last (p : String) : (ext p).toList <:+ (splitLast p).2.toList := by
  unfold ext
  dsimp only
  split
  next dotted =>
    obtain ⟨before, last, chars, absent⟩ := Text.exists_last_of_mem (List.contains_iff_mem.mp dotted)
    have clear : ∀ c ∈ last.reverse, decide (c ≠ '.') = true := by
      intro c mem
      exact decide_eq_true fun same => absent (same ▸ List.mem_reverse.mp mem)
    rw [chars, List.reverse_append, List.reverse_cons, List.append_assoc, List.takeWhile_append_of_pos clear]
    simp
  next => exact List.nil_suffix

theorem ext_isSuffix (p : String) : (ext p).toList <:+ p.toList := by
  obtain ⟨above, whole⟩ : ∃ above, above ++ (splitLast p).2 = p := by
    rcases (exists_last p).2 with same | ⟨above, whole⟩
    · exact ⟨"", by rw [String.empty_append, ← same]⟩
    · exact ⟨above ++ "/", whole.symm⟩
  have chars : above.toList ++ (splitLast p).2.toList = p.toList := by rw [← String.toList_append, whole]
  exact (ext_isSuffix_last p).trans ⟨_, chars⟩

theorem suffix_append_slash {above name ending : List Char} (no_slash : '/' ∉ ending) :
    ending <:+ above ++ '/' :: name ↔ ending <:+ name := by
  constructor
  · rintro ⟨before, whole⟩
    rcases List.append_eq_append_iff.mp whole with ⟨more, -, same⟩ | ⟨more, -, same⟩
    · exact absurd (same ▸ List.mem_append_right _ List.mem_cons_self) no_slash
    · cases more with
      | nil =>
        rw [List.nil_append] at same
        exact absurd (same ▸ List.mem_cons_self) no_slash
      | cons c more =>
        obtain ⟨-, same⟩ := List.cons.inj same
        exact ⟨more, same.symm⟩
  · intro ends
    exact ends.trans ((List.suffix_cons _ _).trans (List.suffix_append _ _))

end Path

theorem SourceName.isScript_outputName (name : String) : isScript (outputName name) = true := by
  have scripted : ∀ {extension : String}, extension ∈ scriptExtensions →
      isScript (Path.dropExt name ++ extension) = true := by
    intro extension listed
    have shape : ∃ rest, extension.toList = '.' :: rest ∧ '/' ∉ extension.toList ∧ '.' ∉ rest := by
      simp only [scriptExtensions, List.mem_cons, List.not_mem_nil, or_false] at listed
      rcases listed with rfl | rfl | rfl
      · exact ⟨['j', 's'], by decide⟩
      · exact ⟨['m', 'j', 's'], by decide⟩
      · exact ⟨['c', 'j', 's'], by decide⟩
    obtain ⟨rest, dot, no_slash, no_dot⟩ := shape
    rw [isScript, Path.ext_append _ dot no_slash no_dot]
    exact List.contains_iff_mem.mpr listed
  unfold outputName
  split
  · exact scripted (by decide)
  · split
    · exact scripted (by decide)
    · exact scripted (by decide)

namespace SourceName

theorem hasDeclarationMark_splitLast (p : String) : hasDeclarationMark (Path.splitLast p).2 = hasDeclarationMark p := by
  rcases Path.exists_last p with ⟨no_slash, same | ⟨above, whole⟩⟩
  · rw [← same]
  · have fits : (Path.ext p).length ≤ (Path.splitLast p).2.length := by
      simpa only [String.length_toList] using (Path.ext_isSuffix_last p).length_le
    have stem : (Path.dropExt p).toList = above.toList ++ '/' :: (Path.dropExt (Path.splitLast p).2).toList := by
      rw [Path.dropExt, Path.dropExt, Path.ext_splitLast]
      generalize Path.ext p = extension at *
      generalize (Path.splitLast p).2 = name at *
      have chars : p.toList = (above.toList ++ ['/']) ++ name.toList := by simp [whole]
      have size : p.length - extension.length = (above.toList ++ ['/']).length + (name.length - extension.length) := by
        rw [← String.length_toList, chars, List.length_append, String.length_toList]
        omega
      rw [String.toList_ofList, String.toList_ofList, chars, size, List.take_length_add_append, List.append_assoc]
      rfl
    rw [hasDeclarationMark, hasDeclarationMark, Text.endsWith, Text.endsWith, stem, Bool.eq_iff_iff,
      List.isSuffixOf_iff_suffix, List.isSuffixOf_iff_suffix, Path.suffix_append_slash (by decide)]

theorem isSource_splitLast (p : String) : isSource (Path.splitLast p).2 = isSource p := by
  simp only [isSource, isDeclaration, Path.ext_splitLast, hasDeclarationMark_splitLast]

theorem proper_of_isSource {p : String} (source : isSource p = true) : Path.Proper (Path.splitLast p).2 := by
  simp only [isSource, Bool.and_eq_true] at source
  have listed : Path.ext p ∈ sourceExtensions := List.contains_iff_mem.mp source.1
  apply Path.proper_of_ext <;> intro same <;> rw [same] at listed <;> revert listed <;> decide

theorem isSource_abs {cwd p : String} (here : Path.isAbs cwd = true) (source : isSource p = true) :
    isSource (Path.abs cwd p) = true := by
  rw [← isSource_splitLast, Path.splitLast_abs here (proper_of_isSource source), isSource_splitLast, source]

end SourceName
end ScriptLoader
