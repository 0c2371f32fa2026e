import ParameterManual.Proofs.Text.Map
import ParameterManual.Proofs.Text.Spacing
import ParameterManual.Toml.Document

/-!
# Documents written out

Strings, flags, arrays and inline tables are written so that they are read
back, with whatever follows them. A document of such values, one line for each
key, is read back as its entries.
-/

set_option autoImplicit false

namespace ParameterManual.Toml
open Text

/-! ## Strings -/

def hexDigit (n : Nat) : Char :=
  Char.ofNat (if n < 10 then '0'.toNat + n else 'a'.toNat + (n - 10))

def written (c : Char) : Text :=
  if c = '"' ∨ c = '\\' then ['\\', c]
  else if isControl c then "\\u00".toList ++ [hexDigit (c.toNat / 16), hexDigit (c.toNat % 16)]
  else [c]

def quotedText (t : Text) : Text := '"' :: (t.flatMap written ++ ['"'])

theorem hexDigit_read (n : Nat) (h : n < 16) : hexDigit? (hexDigit n) = some n := by
  have hall : (List.range 16).all (fun n => hexDigit? (hexDigit n) == some n) = true := by decide
  simpa using List.all_eq_true.mp hall n (List.mem_range.mpr h)

theorem scalar_read (c : Char) (h : isControl c = true) :
    scalar? ['0', '0', hexDigit (c.toNat / 16), hexDigit (c.toNat % 16)] = some c := by
  have hsmall : c.toNat < 128 := by
    simp only [isControl, Bool.or_eq_true, Bool.and_eq_true, decide_eq_true_eq, beq_iff_eq] at h
    omega
  have hhigh := hexDigit_read (c.toNat / 16) (by omega)
  have hlow := hexDigit_read (c.toNat % 16) (by omega)
  have hzero : hexDigit? '0' = some 0 := rfl
  have hvalue : hexValue? ['0', '0', hexDigit (c.toNat / 16), hexDigit (c.toNat % 16)] =
      some c.toNat := by
    simp only [hexValue?, List.foldlM_cons, List.foldlM_nil, hzero, hhigh, hlow, Option.map_some,
      Option.bind_eq_bind, Option.bind_some]
    have hsplit : 16 * (16 * (16 * (16 * 0 + 0) + 0) + c.toNat / 16) + c.toNat % 16 = c.toNat := by
      omega
    rw [hsplit]
    rfl
  rw [scalar?, hvalue]
  simp only [Option.bind_eq_bind, Option.bind_some]
  rw [if_pos (by omega), Char.ofNat_toNat]

theorem basic_quote (rest : Text) : basicRest ('"' :: rest) = some ([], rest) := by
  rw [basicRest.eq_def]
  simp

theorem basic_mark (c : Char) (rest : Text) (h : c = '"' ∨ c = '\\') :
    basicRest ('\\' :: c :: rest) = taking [c] (basicRest rest) := by
  rw [basicRest.eq_def]
  rcases h with rfl | rfl <;> simp [escaped?]

theorem basic_number (a b c d : Char) (rest : Text) (e : Char) (h : scalar? [a, b, c, d] = some e) :
    basicRest ('\\' :: 'u' :: a :: b :: c :: d :: rest) = taking [e] (basicRest rest) := by
  rw [basicRest.eq_def]
  simp [h]

theorem basic_plain (c : Char) (rest : Text) (hquote : c ≠ '"') (hslash : c ≠ '\\')
    (hcontrol : isControl c = false) :
    basicRest (c :: rest) = taking [c] (basicRest rest) := by
  rw [basicRest.eq_def]
  simp [hquote, hslash, hcontrol]

theorem basic_written (c : Char) (rest : Text) :
    basicRest (written c ++ rest) = taking [c] (basicRest rest) := by
  rw [written]
  split
  · rename_i hmark
    exact basic_mark c rest hmark
  · rename_i hplain
    obtain ⟨hquote, hslash⟩ := not_or.mp hplain
    split
    · rename_i hcontrol
      exact basic_number _ _ _ _ rest c (scalar_read c hcontrol)
    · rename_i hcontrol
      exact basic_plain c rest hquote hslash (Bool.eq_false_iff.mpr hcontrol)

theorem basic_read (t rest : Text) :
    basicRest (t.flatMap written ++ '"' :: rest) = some (t, rest) := by
  induction t with
  | nil => exact basic_quote rest
  | cons c t ih =>
    rw [List.flatMap_cons, List.append_assoc, basic_written, ih]
    rfl

theorem written_first (c : Char) : ∃ d r, written c = d :: r ∧ d ≠ '"' := by
  rw [written]
  split
  · exact ⟨'\\', [c], rfl, by decide⟩
  · rename_i hplain
    split
    · exact ⟨'\\', _, rfl, by decide⟩
    · exact ⟨c, [], rfl, fun hc => hplain (Or.inl hc)⟩

/-- What may follow a value. -/
def Ends (rest : Text) : Prop := ∀ c ∈ rest.head?, endsScalar c = true

theorem string_read (t rest : Text) (h : Ends rest) :
    string? (quotedText t ++ rest) = some (t, rest) := by
  have htext : quotedText t ++ rest = '"' :: (t.flatMap written ++ '"' :: rest) := by
    simp [quotedText]
  have hlong : afterLead? ['"', '"', '"'] (quotedText t ++ rest) = none := by
    rw [htext]
    cases t with
    | nil =>
      cases rest with
      | nil => rfl
      | cons c rest =>
        have hc : '"' ≠ c := by
          rintro rfl
          exact absurd (h '"' rfl) (by decide)
        simp [afterLead?, hc]
    | cons c t =>
      obtain ⟨d, r, hfirst, hd⟩ := written_first c
      simp [afterLead?, hfirst, Ne.symm hd]
  have hliteral : afterLead? ['\x27', '\x27', '\x27'] (quotedText t ++ rest) = none := by
    rw [htext]
    rfl
  simp only [string?, hlong, hliteral]
  rw [htext]
  exact basic_read t rest

/-! ## Values -/

/-- A value that nests no deeper than a number, with keys in order. -/
def Plain : (depth : Nat) → Toml → Prop
  | _, .string _ => True
  | _, .boolean _ => True
  | depth + 1, .array items => ∀ item ∈ items, Plain depth item
  | depth + 1, .table entries => TextMap.Sorted entries ∧ ∀ e ∈ entries, Plain depth e.2
  | _, _ => False

def writtenEntry (write : Toml → Text) (e : Text × Toml) : Text :=
  quotedText e.1 ++ '=' :: write e.2

def valueText : (depth : Nat) → Toml → Text
  | _, .string t => quotedText t
  | _, .boolean b => if b then "true".toList else "false".toList
  | depth + 1, .array items =>
    '[' :: (items.flatMap (fun item => valueText depth item ++ [',']) ++ [']'])
  | depth + 1, .table entries =>
    '\x7b' :: (joined [','] (entries.map (writtenEntry (valueText depth))) ++ ['\x7d'])
  | _, _ => []

def stops (c : Char) : Bool := !isLineBlank c && c != '\n' && c != '\r' && c != '#'

theorem skip_stop (c : Char) (t : Text) (h : stops c = true) :
    skipLines false (c :: t) = some (c :: t) ∧ skipBlanks (c :: t) = c :: t := by
  obtain ⟨⟨⟨hblank, hline⟩, hreturn⟩, hcomment⟩ :
      ((isLineBlank c = false ∧ c ≠ '\n') ∧ c ≠ '\r') ∧ c ≠ '#' := by simpa [stops] using h
  constructor
  · rw [skipLines.eq_def]
    simp [hline, hreturn, hcomment, hblank]
  · exact List.dropWhile_cons_of_neg (by simp [hblank])

def Starts (t : Text) : Prop := ∃ c r, t = c :: r ∧ stops c = true ∧ c ≠ ']'

theorem value_starts (depth : Nat) (v : Toml) (h : Plain depth v) : Starts (valueText depth v) := by
  have hquoted (t : Text) : Starts (quotedText t) :=
    ⟨'"', t.flatMap written ++ ['"'], rfl, rfl, by decide⟩
  cases v with
  | string t => cases depth <;> exact hquoted t
  | boolean b => cases depth <;> cases b <;> exact ⟨_, _, rfl, rfl, by decide⟩
  | array items =>
    cases depth with
    | zero => cases h
    | succ depth => exact ⟨'[', _, rfl, rfl, by decide⟩
  | table entries =>
    cases depth with
    | zero => cases h
    | succ depth => exact ⟨'\x7b', _, rfl, rfl, by decide⟩
  | _ => cases depth <;> cases h

theorem value_string (depth : Nat) (t rest : Text) (h : Ends rest) :
    value? depth (quotedText t ++ rest) = some (.string t, rest) := by
  have hvalue : value? depth (quotedText t ++ rest) =
      (string? (quotedText t ++ rest)).map (fun s => (.string s.1, s.2)) := by
    cases depth <;> rfl
  rw [hvalue, string_read t rest h]
  rfl

theorem value_boolean (depth : Nat) (b : Bool) (rest : Text) (h : Ends rest) :
    value? depth ((if b then "true".toList else "false".toList) ++ rest) =
      some (.boolean b, rest) := by
  have hstop : rest.takeWhile (fun c => !endsScalar c) = [] ∧
      rest.dropWhile (fun c => !endsScalar c) = rest := by
    cases rest with
    | nil => exact ⟨rfl, rfl⟩
    | cons c rest => simp [h c rfl]
  have hscalar (word : Text) (hword : word.all (!endsScalar ·) = true)
      (hdate : date? word = none) (hread : wordScalar? word = some (.boolean b)) :
      scalarValue? (word ++ rest) = some (.boolean b, rest) := by
    have hchars := List.all_eq_true.mp hword
    rw [scalarValue?, takeWhile_stopped _ word rest hchars hstop.1,
      List.dropWhile_append_of_pos hchars, hstop.2, hdate, hread]
    rfl
  cases b with
  | false =>
    have hvalue : value? depth ("false".toList ++ rest) = scalarValue? ("false".toList ++ rest) := by
      cases depth <;> rfl
    exact hvalue.trans (hscalar _ rfl rfl rfl)
  | true =>
    have hvalue : value? depth ("true".toList ++ rest) = scalarValue? ("true".toList ++ rest) := by
      cases depth <;> rfl
    exact hvalue.trans (hscalar _ rfl rfl rfl)

/-- That a reader takes a value up to where its text ends. -/
def ReadsBack (value : Reader) (write : Toml → Text) (v : Toml) : Prop :=
  Starts (write v) ∧ ∀ rest, Ends rest → value (write v ++ rest) = some (v, rest)

theorem ended_length {α : Type} (f : α → Text) (c : Char) (items : List α) :
    items.length ≤ (items.flatMap (fun item => f item ++ [c])).length := by
  induction items with
  | nil => simp
  | cons item items ih =>
    rw [List.flatMap_cons]
    simp only [List.length_append, List.length_cons]
    omega

section composed
variable (value : Reader) (write : Toml → Text)

theorem array_item (item : Toml) (rest : Text) (fuel : Nat) (h : ReadsBack value write item) :
    arrayRest value (fuel + 1) (write item ++ ',' :: rest) =
      (arrayRest value fuel rest).map (fun others => (item :: others.1, others.2)) := by
  obtain ⟨⟨c, r, hfirst, hstops, hc⟩, hread⟩ := h
  have hends : Ends (',' :: rest) := by
    rintro d ⟨⟩
    rfl
  have hitem := hread (',' :: rest) hends
  have hcomma := (skip_stop ',' rest rfl).1
  rw [hfirst, List.cons_append] at hitem ⊢
  rw [arrayRest, (skip_stop c _ hstops).1]
  simp [hc, hitem, hcomma]

theorem array_read (items : List Toml) (rest : Text) (fuel : Nat)
    (hitems : ∀ item ∈ items, ReadsBack value write item) (hfuel : items.length < fuel) :
    arrayRest value fuel (items.flatMap (fun item => write item ++ [',']) ++ ']' :: rest) =
      some (items, rest) := by
  induction items generalizing fuel with
  | nil =>
    obtain ⟨fuel, rfl⟩ := Nat.exists_eq_succ_of_ne_zero (by omega : fuel ≠ 0)
    rw [List.flatMap_nil, List.nil_append, arrayRest, (skip_stop ']' rest rfl).1]
    rfl
  | cons item items ih =>
    obtain ⟨fuel, rfl⟩ := Nat.exists_eq_succ_of_ne_zero (by omega : fuel ≠ 0)
    obtain ⟨hitem, hmore⟩ := List.forall_mem_cons.mp hitems
    have hrest := ih fuel hmore (by simpa using hfuel)
    have htext : (item :: items).flatMap (fun item => write item ++ [',']) ++ ']' :: rest =
        write item ++ ',' :: (items.flatMap (fun item => write item ++ [',']) ++ ']' :: rest) := by
      simp
    rw [htext, array_item value write item _ fuel hitem, hrest]
    rfl

theorem entry_read (e : Text × Toml) (rest : Text) (h : ReadsBack value write e.2)
    (hends : Ends rest) :
    keyValue? value (writtenEntry write e ++ rest) = some ([e.1], e.2, rest) := by
  obtain ⟨hstarts, hread⟩ := h
  have htext : writtenEntry write e ++ rest =
      '"' :: (e.1.flatMap written ++ '"' :: ('=' :: (write e.2 ++ rest))) := by
    simp [writtenEntry, quotedText]
  have hkey : keys? (writtenEntry write e ++ rest) = some ([e.1], '=' :: (write e.2 ++ rest)) := by
    rw [htext, keys?, keysFrom, (skip_stop '"' _ rfl).2]
    simp [simpleKey?, basic_read, (skip_stop '=' _ rfl).2]
  have hskip : skipBlanks (write e.2 ++ rest) = write e.2 ++ rest := by
    obtain ⟨c, r, hfirst, hstops, -⟩ := hstarts
    rw [hfirst]
    exact (skip_stop c _ hstops).2
  rw [keyValue?, hkey]
  simp [hskip, hread rest hends]

def drafts (entries : List (Text × Toml)) : Drafts := entries.map (fun e => (e.1, .value e.2))

theorem finish_drafts (entries : List (Text × Toml)) :
    Draft.finishEntries (drafts entries) = entries := by
  induction entries with
  | nil => rfl
  | cons e rest ih =>
    change (e.1, e.2) :: Draft.finishEntries (drafts rest) = _
    rw [ih]

theorem add_behind (e : Text × Toml) (before others : List (Text × Toml))
    (h : TextMap.Sorted (before ++ e :: others)) :
    addValue e.2 [e.1] (drafts before) = some (drafts (before ++ [e])) := by
  have hkeys : TextMap.keys (drafts before) = TextMap.keys before := by
    simp [TextMap.keys, drafts, Function.comp_def]
  have hbehind : ∀ k ∈ TextMap.keys (drafts before), k < e.1 :=
    hkeys ▸ TextMap.sorted_behind before e others h
  rw [addValue, TextMap.find?_last e.1 _ hbehind]
  change some (TextMap.insert e.1 (.value e.2) (drafts before)) = _
  rw [TextMap.insert_last e.1 _ _ hbehind, drafts, drafts, List.map_append]
  rfl

theorem inline_read (e : Text × Toml) (others before : List (Text × Toml)) (rest : Text)
    (fuel : Nat) (hentries : ∀ d ∈ e :: others, ReadsBack value write d.2)
    (hsorted : TextMap.Sorted (before ++ e :: others)) (hfuel : others.length < fuel) :
    inlineRest value fuel (drafts before)
        (joined [','] ((e :: others).map (writtenEntry write)) ++ '\x7d' :: rest) =
      some (drafts (before ++ e :: others), rest) := by
  induction others generalizing e before fuel with
  | nil =>
    obtain ⟨fuel, rfl⟩ := Nat.exists_eq_succ_of_ne_zero (by omega : fuel ≠ 0)
    have hends : Ends ('\x7d' :: rest) := by
      rintro d ⟨⟩
      rfl
    have hentry := entry_read value write e ('\x7d' :: rest) (hentries e (by simp)) hends
    have hone : joined [','] ([e].map (writtenEntry write)) = writtenEntry write e := by
      simp [joined]
    rw [hone, inlineRest, hentry]
    simp [add_behind e before [] hsorted, (skip_stop '\x7d' rest rfl).2]
  | cons next others ih =>
    obtain ⟨fuel, rfl⟩ := Nat.exists_eq_succ_of_ne_zero (by omega : fuel ≠ 0)
    obtain ⟨hfirst, hmore⟩ := List.forall_mem_cons.mp hentries
    have hrest := ih next (before ++ [e]) fuel hmore (by simpa using hsorted) (by simpa using hfuel)
    have hends (t : Text) : Ends (',' :: t) := by
      rintro d ⟨⟩
      rfl
    have hentry (t : Text) := entry_read value write e (',' :: t) hfirst (hends t)
    have hjoined : joined [','] ((e :: next :: others).map (writtenEntry write)) ++ '\x7d' :: rest =
        writtenEntry write e ++
          ',' :: (joined [','] ((next :: others).map (writtenEntry write)) ++ '\x7d' :: rest) := by
      rw [List.map_cons, joined_several _ _ _ (by simp)]
      simp
    rw [hjoined, inlineRest, hentry]
    simpa [add_behind e before (next :: others) hsorted, (skip_stop ',' _ rfl).2] using hrest

theorem joined_length (first : Text) (others : List Text) :
    others.length ≤ (joined [','] (first :: others)).length := by
  induction others generalizing first with
  | nil => simp
  | cons second others ih =>
    have hmore := ih second
    rw [joined_several _ _ _ (by simp)]
    simp only [List.length_append, List.length_cons]
    omega

theorem table_read (entries : List (Text × Toml)) (rest : Text)
    (hentries : ∀ e ∈ entries, ReadsBack value write e.2) (hsorted : TextMap.Sorted entries) :
    inline value (joined [','] (entries.map (writtenEntry write)) ++ '\x7d' :: rest) =
      some (drafts entries, rest) := by
  cases entries with
  | nil =>
    have hnone : joined [','] (([] : List (Text × Toml)).map (writtenEntry write)) = [] := rfl
    rw [hnone, List.nil_append, inline, (skip_stop '\x7d' rest rfl).2]
    rfl
  | cons e others =>
    have hfirst : ∃ r, joined [','] ((e :: others).map (writtenEntry write)) = '"' :: r := by
      by_cases hne : others = []
      · exact ⟨e.1.flatMap written ++ '"' :: '=' :: write e.2, by
          simp [hne, joined, writtenEntry, quotedText]⟩
      · exact ⟨_, by rw [List.map_cons, joined_several _ _ _ (by simpa using hne)]; rfl⟩
    have hlength := joined_length (writtenEntry write e) (others.map (writtenEntry write))
    rw [List.length_map, ← List.map_cons] at hlength
    have hread (fuel : Nat) := inline_read value write e others [] rest fuel hentries hsorted
    generalize joined [','] ((e :: others).map (writtenEntry write)) = t at hfirst hlength hread ⊢
    obtain ⟨r, rfl⟩ := hfirst
    rw [List.cons_append] at hread ⊢
    rw [inline, (skip_stop '"' _ rfl).2]
    exact hread _ (by simp only [List.length_cons, List.length_append] at *; omega)

end composed

/-- A plain value is read back where it nests no deeper than the reader
goes. -/
theorem value_read (depth limit : Nat) (v : Toml) (hlimit : depth ≤ limit) (h : Plain depth v) :
    ReadsBack (value? limit) (valueText depth) v := by
  induction depth generalizing limit v with
  | zero =>
    refine ⟨value_starts 0 v h, fun rest hends => ?_⟩
    cases v with
    | string t => exact value_string limit t rest hends
    | boolean b => exact value_boolean limit b rest hends
    | _ => cases h
  | succ depth ih =>
    refine ⟨value_starts (depth + 1) v h, fun rest hends => ?_⟩
    obtain ⟨limit, rfl⟩ := Nat.exists_eq_succ_of_ne_zero (by omega : limit ≠ 0)
    have hbelow (v : Toml) := ih limit v (by omega)
    cases v with
    | string t => exact value_string (limit + 1) t rest hends
    | boolean b => exact value_boolean (limit + 1) b rest hends
    | array items =>
      have hread (fuel : Nat) := array_read (value? limit) (valueText depth) items rest fuel
        (fun item hm => hbelow item (h item hm))
      have hlength := ended_length (valueText depth) ',' items
      have htext : valueText (depth + 1) (.array items) ++ rest =
          '[' :: (items.flatMap (fun item => valueText depth item ++ [',']) ++ ']' :: rest) := by
        simp [valueText]
      rw [htext]
      change (arrayRest (value? limit) _ _).map _ = _
      rw [hread _ (by rw [List.length_append]; omega)]
      rfl
    | table entries =>
      have hread := table_read (value? limit) (valueText depth) entries rest
        (fun e hm => hbelow e.2 (h.2 e hm)) h.1
      have htext : valueText (depth + 1) (.table entries) ++ rest =
          '\x7b' :: (joined [','] (entries.map (writtenEntry (valueText depth))) ++
            '\x7d' :: rest) := by
        simp [valueText]
      rw [htext]
      change (inline (value? limit) _).map _ = _
      rw [hread]
      change some (Toml.table (Draft.finishEntries (drafts entries)), rest) = _
      rw [finish_drafts]
    | _ => cases h

/-! ## Documents -/

def documentText (entries : List (Text × Toml)) : Text :=
  entries.flatMap (fun e => writtenEntry (valueText 79) e ++ ['\n'])

theorem lines_read (entries before : List (Text × Toml)) (fuel : Nat)
    (hentries : ∀ e ∈ entries, Plain 79 e.2) (hsorted : TextMap.Sorted (before ++ entries))
    (hfuel : entries.length < fuel) :
    linesFrom fuel ⟨[], drafts before⟩ (documentText entries) =
      some ⟨[], drafts (before ++ entries)⟩ := by
  induction entries generalizing before fuel with
  | nil =>
    obtain ⟨fuel, rfl⟩ := Nat.exists_eq_succ_of_ne_zero (by omega : fuel ≠ 0)
    rw [List.append_nil]
    rfl
  | cons e entries ih =>
    obtain ⟨fuel, rfl⟩ := Nat.exists_eq_succ_of_ne_zero (by omega : fuel ≠ 0)
    obtain ⟨hfirst, hmore⟩ := List.forall_mem_cons.mp hentries
    have hrest := ih (before ++ [e]) fuel hmore (by simpa using hsorted) (by simpa using hfuel)
    have hends (t : Text) : Ends ('\n' :: t) := by
      rintro d ⟨⟩
      rfl
    have hentry := entry_read (value? 79) (valueText 79) e ('\n' :: documentText entries)
      (value_read 79 79 e.2 (Nat.le_refl 79) hfirst) (hends _)
    have htext : documentText (e :: entries) =
        writtenEntry (valueText 79) e ++ '\n' :: documentText entries := by
      simp [documentText]
    have hline : line? ⟨[], drafts before⟩ (documentText (e :: entries)) =
        some (⟨[], drafts (before ++ [e])⟩, '\n' :: documentText entries) := by
      have hadd : Reading.add ⟨[], drafts before⟩ [e.1] e.2 =
          some ⟨[], drafts (before ++ [e])⟩ := by
        simp [Reading.add, add_behind e before entries hsorted]
      rw [htext]
      change (keyValue? (value? 79) _).bind _ = _
      rw [hentry]
      change (Reading.add ⟨[], drafts before⟩ [e.1] e.2).bind _ = _
      rw [hadd]
      rfl
    have hlast : lineEnd? ('\n' :: documentText entries) = some (documentText entries) := rfl
    obtain ⟨r, hr⟩ : ∃ r, documentText (e :: entries) = '"' :: r := ⟨_, htext⟩
    rw [hr] at hline ⊢
    rw [linesFrom, (skip_stop '"' r rfl).2]
    simpa [hline, hlast] using hrest

/-- A document of plain values in the order of their keys is read back. -/
theorem document_read (entries : List (Text × Toml)) (hentries : ∀ e ∈ entries, Plain 79 e.2)
    (hsorted : TextMap.Sorted entries) : document? (documentText entries) = some entries := by
  have hlength := ended_length (writtenEntry (valueText 79)) '\n' entries
  have hlines := lines_read entries [] ((documentText entries).length + 1) hentries hsorted
    (Nat.lt_succ_of_le hlength)
  have hmark : (afterLead? ['\ufeff'] (documentText entries)).getD (documentText entries) =
      documentText entries := by
    cases entries with
    | nil => rfl
    | cons e entries => rfl
  rw [document?, hmark]
  change (linesFrom _ ⟨[], drafts []⟩ _).bind _ = _
  rw [hlines]
  exact congrArg some (finish_drafts entries)

end ParameterManual.Toml
