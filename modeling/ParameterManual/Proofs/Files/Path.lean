import ParameterManual.Files.Path

/-!
# Names along paths

The parent of a path follows the first of its names from the same start. A
file that is joined to a folder adds its name to those of the folder.
-/

set_option autoImplicit false

namespace ParameterManual

namespace Path

def names (path : Path) : List Text := (path.splitOn '/').filter (fun part => !part.isEmpty)

theorem dropIdleEnd_front (pieces : List Text) : dropIdleEnd pieces <+: pieces := by
  have := List.dropWhile_suffix isIdle (l := pieces.reverse)
  simpa [dropIdleEnd] using List.reverse_prefix.mpr this

theorem pieces_pure (path : Path) : ∀ piece ∈ path.splitOn '/', '/' ∉ piece := by
  induction path with
  | nil => simp
  | cons c path ih =>
    rw [List.splitOn_cons_eq_if_modifyHead]
    by_cases hc : c = '/'
    · simpa [hc] using ih
    · obtain ⟨first, others, hs⟩ := List.exists_cons_of_ne_nil (List.splitOn_ne_nil '/' path)
      rw [hs] at ih ⊢
      have hfirst := ih first (by simp)
      intro piece hp
      simp only [beq_iff_eq, hc, if_false, List.modifyHead_cons, List.mem_cons] at hp
      rcases hp with rfl | hp
      · simpa [Ne.symm hc] using hfirst
      · exact ih piece (by simp [hp])

theorem names_joined (first : Text) (others : List Text)
    (h : ∀ piece ∈ first :: others, '/' ∉ piece) :
    names (Text.joined ['/'] (first :: others)) =
      (first :: others).filter (fun part => !part.isEmpty) := by
  rw [names, Text.joined, List.splitOn_intercalate '/' h (by simp)]

theorem absolute_joined (first : Text) (others : List Text) (h : '/' ∉ first) :
    isAbsolute (Text.joined ['/'] (first :: others)) = (first.isEmpty && !others.isEmpty) := by
  cases first with
  | nil =>
    cases others with
    | nil => rfl
    | cons second rest => simp [isAbsolute, Text.joined, List.intercalate_cons_cons]
  | cons c first =>
    have hc : c ≠ '/' := fun he => h (by simp [he])
    cases others with
    | nil => simp [isAbsolute, Text.joined, hc]
    | cons second rest => simp [isAbsolute, Text.joined, List.intercalate_cons_cons, hc]

theorem parent_front (path above : Path) (h : parent? path = some above) :
    isAbsolute above = isAbsolute path ∧ names above <+: names path := by
  obtain ⟨first, others, hs⟩ := List.exists_cons_of_ne_nil (List.splitOn_ne_nil '/' path)
  have hpure := pieces_pure path
  rw [hs] at hpure
  have hfirst := hpure first (by simp)
  have hpath : path = Text.joined ['/'] (first :: others) := by
    rw [Text.joined, ← hs, List.intercalate_splitOn]
  have habsolute : isAbsolute path = (first.isEmpty && !others.isEmpty) := by
    rw [hpath, absolute_joined first others hfirst]
  have hnames : names path = (first :: others).filter (fun part => !part.isEmpty) := by
    rw [names, hs]
  rw [parent?, hs] at h
  cases hkept : dropIdleEnd others with
  | nil =>
    simp only [hkept] at h
    by_cases hf : first.isEmpty = true
    · simp [hf] at h
    · obtain rfl : [] = above := by simpa [hf] using h
      refine ⟨?_, List.nil_prefix⟩
      rw [habsolute, Bool.eq_false_iff.mpr hf]
      rfl
  | cons piece pieces =>
    have hfront := dropIdleEnd_front others
    rw [hkept] at hfront
    have hothers : others.isEmpty = false := by
      obtain ⟨rest, rfl⟩ := hfront
      rfl
    have habove : dropIdleEnd (piece :: pieces).dropLast <+: others :=
      (dropIdleEnd_front _).trans ((List.dropLast_prefix _).trans hfront)
    simp only [hkept] at h
    generalize dropIdleEnd (piece :: pieces).dropLast = kept at h habove
    by_cases hroot : (first.isEmpty && kept.isEmpty) = true
    · obtain rfl : ['/'] = above := by
        rw [if_pos hroot] at h
        exact Option.some.inj h
      obtain ⟨hf, -⟩ := Bool.and_eq_true_iff.mp hroot
      refine ⟨?_, List.nil_prefix⟩
      rw [habsolute, hf, hothers]
      rfl
    · obtain rfl : Text.joined ['/'] (first :: kept) = above := by
        rw [if_neg hroot] at h
        exact Option.some.inj h
      have hkeptpure : ∀ p ∈ first :: kept, '/' ∉ p := by
        intro p hp
        rcases List.mem_cons.mp hp with rfl | hp
        · exact hfirst
        · exact hpure p (List.mem_cons_of_mem _ (habove.subset hp))
      constructor
      · rw [absolute_joined first kept hfirst, habsolute, hothers]
        cases hf : first.isEmpty <;> simp [hf] at hroot ⊢
        exact hroot
      · rw [names_joined first kept hkeptpure, hnames]
        exact List.IsPrefix.filter _ (List.prefix_cons_inj first |>.mpr habove)

theorem absolute_file (file : Text) (hfile : '/' ∉ file) : isAbsolute file = false := by
  cases file with
  | nil => rfl
  | cons c file =>
    have hc : c ≠ '/' := by
      rintro rfl
      simp at hfile
    simp [isAbsolute, hc]

theorem names_file (file : Text) (hfile : '/' ∉ file) (hne : file ≠ []) : names file = [file] := by
  rw [names, List.splitOn_eq_singleton hfile]
  simp [hne]

theorem names_slash (above below : Text) :
    names (above ++ '/' :: below) = names above ++ names below := by
  rw [names, List.splitOn_append_cons_self, List.filter_append, names, names]

theorem parts_file (above file : Text) (hfile : '/' ∉ file) (hne : file ≠ []) :
    parts (above ++ file) = names (above ++ file) := by
  have hend : (above ++ file).endsWithChar '/' = false := by
    rw [Text.endsWithChar, List.getLast?_append, List.getLast?_eq_some_getLast hne]
    have hlast : file.getLast hne ≠ '/' := fun h => hfile (h ▸ List.getLast_mem hne)
    simpa using hlast
  rw [parts, hend, names]
  simp

theorem join_slash (folder : Path) (file : Text) (hfile : '/' ∉ file) (hfolder : folder ≠ []) :
    ∃ above, join folder file = above ++ '/' :: file ∧ names above = names folder ∧
      isAbsolute (above ++ '/' :: file) = isAbsolute folder := by
  rw [join, absolute_file file hfile]
  by_cases hend : folder.endsWithChar '/' = true
  · have hlast := hend
    rw [Text.endsWithChar, beq_iff_eq] at hlast
    obtain ⟨above, rfl⟩ := List.getLast?_eq_some_iff.mp hlast
    refine ⟨above, by simp [hend], ?_, ?_⟩
    · rw [names_slash]
      exact (List.append_nil _).symm
    · cases above <;> rfl
  · refine ⟨folder, by simp [hend, hfolder], rfl, ?_⟩
    obtain ⟨c, rest, rfl⟩ := List.exists_cons_of_ne_nil hfolder
    rfl

theorem join_file (folder : Path) (file : Text) (hfile : '/' ∉ file) (hne : file ≠ []) :
    isAbsolute (join folder file) = isAbsolute folder ∧
      parts (join folder file) = names folder ++ [file] := by
  by_cases hfolder : folder = []
  · subst hfolder
    have hjoin : join [] file = file := by simp [join, absolute_file file hfile]
    rw [hjoin]
    constructor
    · exact absolute_file file hfile
    · exact (parts_file [] file hfile hne).trans (names_file file hfile hne)
  · obtain ⟨above, hjoin, hnames, habsolute⟩ := join_slash folder file hfile hfolder
    have hparts := parts_file (above ++ ['/']) file hfile hne
    rw [List.append_assoc, List.singleton_append] at hparts
    rw [hjoin]
    refine ⟨habsolute, ?_⟩
    rw [hparts, names_slash, names_file file hfile hne, hnames]

end Path

end ParameterManual
