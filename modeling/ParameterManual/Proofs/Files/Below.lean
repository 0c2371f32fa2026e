import ParameterManual.Proofs.Files.Naming

/-!
# What stands below a folder

A path that is joined of a folder and a name leads to what has this name in
the folder. So what pairs of files there are in a folder, and what they hold,
depends on the files in it alone: no name of a header or of a definition file
leads out of the folder.
-/

set_option autoImplicit false

namespace ParameterManual

namespace Path

structure IsName (name : Text) : Prop where
  nonempty : name ≠ []
  noSlash : '/' ∉ name
  noDot : name ≠ ['.']
  noDots : name ≠ ['.', '.']

instance (name : Text) : Decidable (IsName name) :=
  decidable_of_iff (name ≠ [] ∧ '/' ∉ name ∧ name ≠ ['.'] ∧ name ≠ ['.', '.'])
    ⟨fun ⟨a, b, c, d⟩ => ⟨a, b, c, d⟩, fun ⟨a, b, c, d⟩ => ⟨a, b, c, d⟩⟩

theorem join_nonempty (folder : Path) (name : Text) (hname : '/' ∉ name) (hne : name ≠ []) :
    join folder name ≠ [] := by
  obtain ⟨-, hparts⟩ := join_file folder name hname hne
  intro hempty
  rw [hempty] at hparts
  simp [parts, Text.endsWithChar] at hparts

end Path

namespace FileTree
open Entry

def below (tree : FileTree) (folder : Path) (place : List Text) : Option Entry :=
  (tree.find folder).toOption.bind (Entry.get? · place)

/-- What the file at a place below a folder holds. -/
def held (tree : FileTree) (folder : Path) (place : List Text) : Option Content :=
  (tree.below folder place).bind Entry.content?

/-- What is seen at a place below a folder: nothing, a folder, or a file and
what it holds. -/
def shown (tree : FileTree) (folder : Path) (place : List Text) : Option (Option Content) :=
  (tree.below folder place).map Entry.content?

section walks
variable (tree : FileTree)

theorem walk_bind (root : Entry) (place parts others : List Text) :
    walk root place (parts ++ others) = walk root place parts >>= (walk root · others) := by
  induction parts generalizing place with
  | nil => rfl
  | cons part rest ih =>
    rw [List.cons_append, walk, walk]
    split
    · split
      · exact ih place
      · split
        · exact ih place.dropLast
        · split
          · exact ih (place ++ [part])
          · rfl
    · rfl

theorem walk_slash (root : Entry) (place : List Text) (name : Text) :
    (walk root place [['.']] >>= (walk root · [name])) = walk root place [name] := by
  rw [← walk_bind, List.singleton_append, walk, walk]
  split
  · simp [walk]
  · rfl

theorem place_join (folder : Path) (name : Text) (hname : '/' ∉ name) (hne : name ≠ [])
    (hfolder : folder ≠ []) :
    tree.place (Path.join folder name) =
      tree.place folder >>= (walk tree.root · [name]) := by
  obtain ⟨habsolute, hparts⟩ := Path.join_file folder name hname hne
  have hjoin := Path.join_nonempty folder name hname hne
  rw [place, place, if_neg (by simpa using hjoin), if_neg (by simpa using hfolder), start,
    habsolute, ← start,
    hparts, walk_bind, Path.parts, ← Path.names]
  split
  · rw [walk_bind]
    cases walk tree.root (tree.start folder) (Path.names folder) with
    | error fault => rfl
    | ok p => exact (walk_slash tree.root p name).symm
  · rw [List.append_nil]

theorem below_place (path : Path) (q : List Text) :
    tree.below path q = (tree.place path).toOption.bind (fun p => tree.root.get? (p ++ q)) := by
  rw [below]
  cases hplace : tree.place path with
  | error fault =>
    rw [find, hplace]
    rfl
  | ok p =>
    rw [find_place tree path p hplace]
    change _ = tree.root.get? (p ++ q)
    rw [get_append]
    cases tree.root.get? p <;> rfl

theorem walk_name (root : Entry) (place : List Text) (name : Text) (hname : Path.IsName name) :
    (walk root place [name]).toOption = if (root.kind (place ++ [name])).isSome then
      some (place ++ [name]) else none := by
  rw [walk]
  split
  · rename_i entries he
    rw [if_neg hname.noDot, if_neg hname.noDots, child_kind root place entries he]
    split <;> rfl
  · rename_i hother
    rw [kind, get_append]
    cases hg : root.get? place with
    | none => rfl
    | some entry =>
      cases entry with
      | file content => rfl
      | folder entries => exact absurd hg (hother entries)

theorem below_join (folder : Path) (name : Text) (hname : Path.IsName name) (hfolder : folder ≠ [])
    (q : List Text) : tree.below (Path.join folder name) q = tree.below folder (name :: q) := by
  rw [below_place, below_place, place_join tree folder name hname.noSlash hname.nonempty hfolder]
  cases tree.place folder with
  | error fault => rfl
  | ok p =>
    change (walk tree.root p [name]).toOption.bind _ = tree.root.get? (p ++ name :: q)
    have hsplit : p ++ name :: q = p ++ [name] ++ q := by simp
    rw [walk_name tree.root p name hname, kind, hsplit]
    cases hg : tree.root.get? (p ++ [name]) with
    | none =>
      rw [get_append, hg]
      rfl
    | some entry => rfl

theorem below_parent (folder : Path) (name : Text) (hname : Path.IsName name)
    (hfolder : folder ≠ []) (entries : List (Text × Entry))
    (h : tree.below folder [name] = some (.folder entries)) (q : List Text) :
    tree.below (Path.join (Path.join folder name) ['.', '.']) q = tree.below folder q := by
  have hjoin := Path.join_nonempty folder name hname.noSlash hname.nonempty
  rw [below_place, place_join tree _ ['.', '.'] (by simp) (by simp) hjoin,
    place_join tree folder name hname.noSlash hname.nonempty hfolder, below_place]
  rw [below_place] at h
  cases hplace : tree.place folder with
  | error fault => rfl
  | ok p =>
    rw [hplace] at h
    change tree.root.get? (p ++ [name]) = some (.folder entries) at h
    have hwalk := walk_name tree.root p name hname
    rw [kind, h] at hwalk
    cases hnext : walk tree.root p [name] with
    | error fault =>
      rw [hnext] at hwalk
      cases hwalk
    | ok next =>
      rw [hnext] at hwalk
      obtain rfl : next = p ++ [name] := Option.some.inj hwalk
      have hup := walk_onward tree.root (p ++ [name]) ['.', '.'] []
        ⟨by rw [kind, h]; rfl, Or.inr (Or.inl rfl)⟩
      rw [onward, if_neg (by decide), if_pos rfl, List.dropLast_concat] at hup
      change (walk tree.root p [name] >>= (walk tree.root · [['.', '.']])).toOption.bind _ = _
      rw [hnext]
      change (walk tree.root (p ++ [name]) [['.', '.']]).toOption.bind _ = _
      rw [hup]
      rfl

theorem kind_above (root : Entry) (p : List Text) (h : root.kind p = some true) :
    root.kind p.dropLast = some true := by
  rcases List.eq_nil_or_concat p with rfl | ⟨above, name, rfl⟩
  · exact h
  · rw [List.concat_eq_append] at h ⊢
    rw [List.dropLast_concat]
    by_contra hno
    rw [kind, get_below root above name [] hno] at h
    cases h

theorem up_held (folder : Path) (hfolder : folder ≠ []) :
    tree.held (Path.join folder ['.', '.']) [] = none := by
  rw [held, below_place, place_join tree folder ['.', '.'] (by simp) (by simp) hfolder]
  cases tree.place folder with
  | error fault => rfl
  | ok p =>
    change ((walk tree.root p [['.', '.']]).toOption.bind _).bind _ = none
    cases hwalk : walk tree.root p [['.', '.']] with
    | error fault => rfl
    | ok next =>
      obtain ⟨hp, -⟩ := walk_passable tree.root p ['.', '.'] [] next hwalk
      obtain rfl : next = p.dropLast := walk_target tree.root p [['.', '.']] next hwalk
      obtain ⟨entries, he⟩ := kind_folder tree.root _ (kind_above tree.root p hp)
      change (tree.root.get? (p.dropLast ++ [])).bind _ = none
      rw [List.append_nil, he]
      rfl

theorem held_join (folder : Path) (name : Text) (hname : Path.IsName name) (hfolder : folder ≠ [])
    (q : List Text) : tree.held (Path.join folder name) q = tree.held folder (name :: q) := by
  rw [held, below_join tree folder name hname hfolder, held]

theorem held_above (folder : Path) (p : List Text) (name : Text)
    (h : (tree.held folder (p ++ [name])).isSome = true) :
    ∃ entries, tree.below folder p = some (.folder entries) := by
  rw [held, below] at h
  rw [below]
  cases hfind : (tree.find folder).toOption with
  | none =>
    rw [hfind] at h
    cases h
  | some entry =>
    rw [hfind] at h
    change ((entry.get? (p ++ [name])).bind content?).isSome = true at h
    change ∃ entries, entry.get? p = some (.folder entries)
    apply kind_folder
    by_contra hno
    rw [get_below entry p name [] hno] at h
    cases h

theorem isFile_held (path : Path) : tree.isFile path = (tree.held path []).isSome := by
  rw [isFile, held, below]
  cases tree.find path with
  | error fault => rfl
  | ok entry => cases entry <;> rfl

theorem held_shown (folder : Path) (place : List Text) :
    tree.held folder place = (tree.shown folder place).join := by
  rw [held, shown]
  cases tree.below folder place <;> rfl

theorem isFolder_shown (path : Path) :
    tree.isFolder path = (tree.shown path []).any Option.isNone := by
  rw [isFolder, shown, below]
  cases tree.find path with
  | error fault => rfl
  | ok entry => cases entry <;> rfl

theorem find_held (path : Path) (content : Content) (h : tree.held path [] = some content) :
    tree.find path = .ok (.file content) := by
  rw [held, below] at h
  cases hfind : tree.find path with
  | error fault =>
    rw [hfind] at h
    cases h
  | ok entry =>
    rw [hfind] at h
    cases entry with
    | folder entries => cases h
    | file found =>
      obtain rfl : found = content := Option.some.inj h
      rfl

theorem readText_same (tree' : FileTree) (path : Path)
    (h : tree'.held path [] = tree.held path []) (hfile : (tree.held path []).isSome = true) :
    tree'.readText path = tree.readText path := by
  obtain ⟨content, hcontent⟩ := Option.isSome_iff_exists.mp hfile
  rw [readText, readText, read, read, find_held tree path content hcontent,
    find_held tree' path content (h.trans hcontent)]

theorem readText_join (tree' : FileTree) (folder : Path) (name : Text) (hname : Path.IsName name)
    (hfolder : folder ≠ []) (h : tree'.held folder [name] = tree.held folder [name])
    (hfile : (tree.held folder [name]).isSome = true) :
    tree'.readText (Path.join folder name) = tree.readText (Path.join folder name) := by
  apply readText_same
  · rw [held_join tree' folder name hname hfolder, held_join tree folder name hname hfolder, h]
  · rw [held_join tree folder name hname hfolder]
    exact hfile

end walks

section writing
variable (tree : FileTree) (folder : Path) (p : List Text) (child file : Text)
  (content : Content) (hfolder : tree.place folder = .ok p)
  (hchild : tree.root.kind (p ++ [child]) = some true)
  (hold : tree.root.kind (p ++ [child] ++ [file]) ≠ some true)

theorem put_stands (place : List Text) (hplace : tree.root.kind place = some true)
    (hold : tree.root.kind (place ++ [file]) ≠ some true) :
    Stands tree (tree.putAt (place, file) (.file content)) := by
  refine ⟨rfl, ?_⟩
  intro q isFolder hq
  by_cases hsite : q = place ++ [file]
  · subst hsite
    cases isFolder with
    | true => exact absurd hq hold
    | false =>
      rw [putAt, Entry.kind, Entry.get_put_self]
      rfl
  · rw [putAt, Entry.kind_put _ (Entry.file_leaf content) place file tree.root hplace hold q hsite]
    exact hq

include hfolder hchild hold

/-- A file that is written to a folder of a folder is seen at its place
only. -/
theorem put_shown (q : List Text) :
    (tree.putAt (p ++ [child], file) (.file content)).shown folder q =
      if q = [child, file] then some (some content) else tree.shown folder q := by
  have hplace := place_stands tree _ (put_stands tree file content _ hchild hold) folder p hfolder
  have hsite : p ++ [child] ++ [file] = p ++ [child, file] := by simp
  rw [shown, shown, below_place, below_place, hplace, hfolder]
  change (((Entry.file content).put (p ++ [child] ++ [file]) tree.root).get? (p ++ q)).map _ =
    if q = [child, file] then some (some content) else (tree.root.get? (p ++ q)).map _
  by_cases hq : q = [child, file]
  · rw [if_pos hq, hq, hsite, Entry.get_put_self]
    rfl
  · rw [if_neg hq]
    have hne : p ++ q ≠ p ++ [child] ++ [file] := by
      rw [hsite]
      exact fun heq => hq (List.append_cancel_left heq)
    rcases Entry.put_kept _ (Entry.file_leaf content) _ file tree.root hchild hold _ hne with
      h | ⟨entries, entries', h, h', -⟩
    · rw [h]
    · rw [h, h']
      rfl

omit hchild in
theorem old_shown (rest : List Text) :
    tree.shown folder (child :: file :: rest) = none ∨
      ∃ found, tree.shown folder [child, file] = some (some found) := by
  have hsite : p ++ [child] ++ [file] = p ++ [child, file] := by simp
  have hrest : p ++ child :: file :: rest = p ++ [child, file] ++ rest := by simp
  rw [hsite, Entry.kind] at hold
  rw [shown, shown, below_place, below_place, hfolder]
  change (tree.root.get? (p ++ child :: file :: rest)).map _ = none ∨
    ∃ found, (tree.root.get? (p ++ [child, file])).map _ = some (some found)
  rw [hrest, Entry.get_append]
  cases hg : tree.root.get? (p ++ [child, file]) with
  | none => exact Or.inl rfl
  | some entry =>
    cases entry with
    | file found => exact Or.inr ⟨found, rfl⟩
    | folder entries =>
      rw [hg] at hold
      exact absurd rfl hold

end writing

end FileTree

namespace SourcePair
open FileTree

theorem mem_headersIn (extensions : Extensions) (tree : FileTree) (folder : Path) (header : Text) :
    header ∈ headersIn extensions tree folder ↔
      Path.nameHasExtension extensions.header header = true ∧
        (tree.held folder [header]).isSome = true := by
  rw [headersIn, names_view, view, held, below]
  cases tree.find folder with
  | error fault =>
    change header ∈ [] ↔ _ ∧ false = true
    simp
  | ok entry =>
    cases entry with
    | file content =>
      change header ∈ [] ↔ _ ∧ false = true
      simp
    | folder entries =>
      change header ∈ TextMap.keysWhere _ entries ↔ _ ∧
        (((TextMap.find? header entries).bind (Entry.get? · [])).bind Entry.content?).isSome = true
      rw [TextMap.mem_keysWhere]
      cases TextMap.find? header entries with
      | none => simp
      | some entry => cases entry <;> simp [Entry.isFolder, Entry.get?, Entry.content?]

theorem stem_nonempty (extension header : Text)
    (h : Path.nameHasExtension extension header = true) : stem header ≠ [] := by
  rw [Path.nameHasExtension, Path.cutExtension] at h
  rw [stem, Path.cutExtension]
  split at h
  · cases h
  · rename_i hcut
    exact hcut

theorem definition_name (extension name : Text) (hext : '/' ∉ extension) (hname : '/' ∉ name)
    (hne : name ≠ []) :
    Path.IsName (definitionName extension name) ∨ definitionName extension name = ['.', '.'] := by
  by_cases hdot : name = ['.']
  · exact Or.inr (if_pos hdot)
  · rw [definitionName, if_neg hdot, withExtension]
    by_cases hempty : extension = []
    · rw [if_pos (by simp [hempty])]
      by_cases hdots : name = ['.', '.']
      · exact Or.inr hdots
      · exact Or.inl ⟨hne, hname, hdot, hdots⟩
    · rw [if_neg (by simpa using hempty)]
      obtain ⟨c, rest, rfl⟩ := List.exists_cons_of_ne_nil hne
      obtain ⟨d, more, rfl⟩ := List.exists_cons_of_ne_nil hempty
      refine Or.inl ⟨by simp, ?_, ?_, ?_⟩
      · simp only [List.mem_append, List.mem_cons, not_or] at hext hname ⊢
        exact ⟨hname, by decide, hext⟩
      · simp
      · intro heq
        have hlength := congrArg List.length heq
        simp at hlength
        omega

theorem definition_stem (extension name : Text) (hext : extension ≠ []) (hdot : '.' ∉ extension)
    (hname : name ≠ []) : stem (definitionName extension name) = name := by
  by_cases hsingle : name = ['.']
  · rw [definitionName, if_pos hsingle, hsingle]
    rfl
  · rw [definitionName, if_neg hsingle, withExtension, if_neg (by simpa using hext), stem,
      Path.cutExtension]
    have hcut : ((name ++ '.' :: extension).reverse.dropWhile (· != '.')).tail.reverse = name := by
      rw [List.reverse_append, List.reverse_cons, List.append_assoc, List.dropWhile_append_of_pos]
      · simp
      · intro c hc
        have hne : c ≠ '.' := by
          rintro rfl
          exact hdot (List.mem_reverse.mp hc)
        simpa using hne
    rw [hcut]
    cases name with
    | nil => exact absurd rfl hname
    | cons c rest => rfl

section headers
variable (extensions : Extensions) (tree : FileTree) (folder : Path) (header : Text)

theorem header_noSlash (hnamed : Named tree) (h : header ∈ headersIn extensions tree folder) :
    '/' ∉ header := by
  rw [headersIn] at h
  split at h
  · rename_i headers hheaders
    exact listed_names tree hnamed folder extensions.header headers hheaders header h
  · cases h

theorem header_name (hslash : '/' ∉ header)
    (hextension : Path.nameHasExtension extensions.header header = true)
    (hdefinition : definitionName extensions.source (stem header) ≠ ['.', '.']) :
    Path.IsName header := by
  refine ⟨?_, hslash, ?_, ?_⟩
  · rintro rfl
    cases hextension
  · rintro rfl
    cases hextension
  · rintro rfl
    exact hdefinition rfl

theorem ofHeader_up (hfolder : folder ≠ [])
    (h : definitionName extensions.source (stem header) = ['.', '.']) :
    ofHeader tree extensions folder header =
      .error (.file (Path.join folder ['.', '.']) .definitionMissing) := by
  rw [ofHeader, h, isFile_held, up_held tree folder hfolder]
  rfl

theorem ofHeader_held (hfolder : folder ≠ [])
    (h : Path.IsName (definitionName extensions.source (stem header))) :
    ofHeader tree extensions folder header =
      if (tree.held folder [definitionName extensions.source (stem header)]).isSome then
        .ok ⟨stem header, Path.join folder header,
          Path.join folder (definitionName extensions.source (stem header))⟩
      else .error (.file (Path.join folder (definitionName extensions.source (stem header)))
        .definitionMissing) := by
  rw [ofHeader, isFile_held, held_join tree folder _ h hfolder]

end headers

end SourcePair

end ParameterManual
