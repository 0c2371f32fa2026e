import ParameterManual.Proofs.ClassNode
import ParameterManual.Proofs.Constructor.Ready
import ParameterManual.Proofs.Manual.Names
import ParameterManual.Proofs.Manual.Shown

/-!
# Escaping of sections

A control sequence closes off its arguments by braces, and a line by its end.
So what the texts of a variable have been escaped for stays so in its entry,
and a heading is escaped exactly if the names of types in it are. A section is
escaped then exactly if the names of the types it shows are, as long as none of
these leaves a dollar sign without its pair.
-/

set_option autoImplicit false

namespace ParameterManual.Manual
open ClassNode Markup

section controls
variable (name : Text) (arguments : List Text)

theorem braced_separate (t : Text) (h : Closed false t) : Separate (braced t) :=
  separate_enclosed t ['\x7d'] h (by decide) ['\x7b'] (by decide)

theorem braced_escaped (t : Text) (h : Closed false t) : Escaped (braced t) ↔ Escaped t :=
  escaped_enclosed t ['\x7d'] h (by decide) ['\x7b'] (by decide)

theorem bracketed_separate (t : Text) (h : Closed false t) : Separate (bracketed t) :=
  separate_enclosed t [']'] h (by decide) ['['] (by decide)

theorem bracketed_escaped (t : Text) (h : Closed false t) : Escaped (bracketed t) ↔ Escaped t :=
  escaped_enclosed t [']'] h (by decide) ['['] (by decide)

theorem control_separate (hname : Inert ('\\' :: name)) (h : ∀ t ∈ arguments, Closed false t) :
    Separate (control name arguments) :=
  separate_append _ _ (inert_separate _ hname)
    (separate_flatMap braced arguments (fun t ht => braced_separate t (h t ht)))

theorem control_escaped (hname : Inert ('\\' :: name)) (h : ∀ t ∈ arguments, Closed false t) :
    Escaped (control name arguments) ↔ ∀ t ∈ arguments, Escaped t := by
  rw [control, escaped_append _ _ (inert_separate _ hname), and_iff_right hname.escaped,
    escaped_flatMap braced arguments (fun t ht => braced_separate t (h t ht))]
  exact forall₂_congr (fun t ht => braced_escaped t (h t ht))

theorem line_separate (t : Text) (h : Closed false t) : Separate (line t) :=
  separate_ended t ['\n'] h (by decide)

theorem line_escaped (t : Text) (h : Closed false t) : Escaped (line t) ↔ Escaped t :=
  escaped_ended t ['\n'] h (by decide)

theorem line_settled (t : Text) (h : Escaped t) : Settled (line t) :=
  { line_separate t (kept_closed false t h) with
    escaped := (line_escaped t (kept_closed false t h)).mpr h }

theorem control_settled (hname : Inert ('\\' :: name)) (h : ∀ t ∈ arguments, Escaped t) :
    Settled (control name arguments) :=
  have hclosed : ∀ t ∈ arguments, Closed false t := fun t ht => kept_closed false t (h t ht)
  { control_separate name arguments hname hclosed with
    escaped := (control_escaped name arguments hname hclosed).mpr h }

theorem paragraph_escaped (t : Text) (h : Closed false t) :
    Separate (line t ++ line []) ∧ (Escaped (line t ++ line []) ↔ Escaped t) := by
  have hline := line_separate t h
  have hblank := line_settled [] nil_escaped
  refine ⟨separate_append _ _ hline hblank.toSeparate, ?_⟩
  rw [escaped_append _ _ hline, and_iff_left hblank.escaped, line_escaped t h]

theorem optionalLine_settled (t : Option Text) (hname : Inert ('\\' :: name))
    (h : ∀ s ∈ t, Escaped s) : Settled (optionalLine name t) := by
  cases t with
  | none => exact settled_nil
  | some s =>
    have hargument : ∀ r ∈ [s], Escaped r := by simpa using h
    exact line_settled _ (control_settled name [s] hname hargument).escaped

end controls

/-- A style that spells with escaped texts, and replaces inert ones. -/
structure Style.Steady (style : Style) : Prop where
  aliases : ∀ e ∈ style.aliases, Escaped e.2
  rules : ∀ rule ∈ style.rules, rule.Steady

def Style.builtin : Style := ⟨builtinAliases, NameRule.defaults⟩

theorem builtin_steady : Style.builtin.Steady where
  aliases := by decide +kernel
  rules := defaults_steady

section entries
variable (style : Style) (hstyle : style.Steady) (v : Variable)

include hstyle in
theorem displayType_escaped : Escaped (displayType style.aliases v) := by
  rw [displayType]
  split
  · rename_i flag hflag
    have hknown : flag = "estimable".toList ∨ flag = "addressable".toList := by
      rw [flagText?] at hflag
      split at hflag
      · exact Or.inl (Option.some.inj hflag).symm
      · split at hflag
        · exact Or.inr (Option.some.inj hflag).symm
        · cases hflag
    rcases hknown with rfl | rfl <;> split <;> decide
  · cases halias : TextMap.find? v.typeName style.aliases with
    | none => exact escape_escaped v.typeName
    | some shown => exact hstyle.aliases _ (TextMap.mem_of_find? _ v.typeName shown halias)

theorem bound_text_escaped (b : Bound) (h : Escaped b.value) : Escaped b.text := by
  have hending : Inert (if b.inclusive then " (inclusive)" else " (exclusive)").toList := by
    cases b.inclusive <;> decide
  exact (escaped_ended b.value _ (kept_closed false b.value h) hending).mpr h

theorem joined_escaped (pieces : List Text) (h : ∀ t ∈ pieces, Escaped t) :
    Escaped (Text.joined ", ".toList pieces) := by
  induction pieces with
  | nil => exact nil_escaped
  | cons first rest ih =>
    have hfirst := h first (by simp)
    have hclosed := kept_closed false first hfirst
    have hrest := ih (fun t ht => h t (by simp [ht]))
    cases rest with
    | nil =>
      rw [Text.joined, List.intercalate_singleton]
      exact hfirst
    | cons second rest =>
      rw [Text.joined, List.intercalate_cons_cons,
        escaped_append _ _ (separate_ended first ", ".toList hclosed (by decide)),
        escaped_ended first ", ".toList hclosed (by decide)]
      exact ⟨hfirst, hrest⟩

include hstyle in
theorem entry_settled (h : v.Ready) : Settled (entry style v) := by
  have hname := control_settled "defSub".toList [v.name] (by decide) (by simpa using h.name)
  have hdescription := (braced_escaped v.description (kept_closed _ _ h.description)).mpr
    h.description
  have hfirst : Escaped (control "defSub".toList [v.name] ++ ' ' :: braced v.description) := by
    rw [escaped_append _ _ hname.toSeparate]
    exact ⟨hname.escaped, (escaped_append [' '] _ (inert_separate _ (by decide))).mpr
      ⟨by decide, hdescription⟩⟩
  have htype := control_settled "defType".toList [displayType style.aliases v] (by decide)
    (by simpa using displayType_escaped style hstyle v)
  have hnonempty (t : Text) (ht : Escaped t) : ∀ s ∈ nonempty? t, Escaped s := by
    intro s hs
    rw [nonempty?] at hs
    split at hs
    · cases hs
    · obtain rfl := Option.some.inj hs
      exact ht
  have hdefault : ∀ s ∈ v.default.bind nonempty?, Escaped s := by
    intro s hs
    obtain ⟨t, ht, hs⟩ := Option.bind_eq_some_iff.mp hs
    exact hnonempty t (h.default t ht) s hs
  have hbound (b : Option Bound) (hb : ∀ c ∈ b, Escaped c.value) :
      ∀ s ∈ b.map Bound.text, Escaped s := by
    intro s hs
    obtain ⟨c, hc, rfl⟩ := Option.map_eq_some_iff.mp hs
    exact bound_text_escaped c (hb c hc)
  have hallowed : ∀ s ∈ v.allowedValues.map (Text.joined ", ".toList), Escaped s := by
    intro s hs
    obtain ⟨values, hvalues, rfl⟩ := Option.map_eq_some_iff.mp hs
    exact joined_escaped values (h.allowedValues values hvalues)
  rw [entry]
  apply settled_append _ _ _ (line_settled [] nil_escaped)
  apply settled_append _ _ _ (optionalLine_settled _ _ (by decide) hallowed)
  apply settled_append _ _ _ (optionalLine_settled _ _ (by decide) (hbound _ h.upperBound))
  apply settled_append _ _ _ (optionalLine_settled _ _ (by decide) (hbound _ h.lowerBound))
  apply settled_append _ _ _ (optionalLine_settled _ _ (by decide) (hnonempty _ h.value))
  apply settled_append _ _ _ (optionalLine_settled _ _ (by decide) hdefault)
  exact settled_append _ _ (line_settled _ hfirst) (line_settled _ htype.escaped)

end entries

/-- A name whose dollar signs pair up, because it is escaped or has none. -/
def Paired (name : Text) : Prop := Escaped name ∨ hasDelimiter false name = false

theorem alike_closed (name t : Text) (hname : Paired name) (h : Alike false name t) :
    Closed false t := by
  rcases hname with hname | hname
  · exact kept_closed false t (h.text.mp hname)
  · exact undelimited_closed false t (h.delimiter ▸ hname)

section headings
variable (style : Style) (hstyle : style.Steady)
include hstyle

theorem command_closed (name : Text) (h : Paired name) : Closed false (command style.rules name) :=
  alike_closed name _ h (command_alike style.rules hstyle.rules name)

theorem label_closed (name : Text) (h : Paired name) : Closed false (label style.rules name) :=
  alike_closed name _ h (label_alike style.rules hstyle.rules name)

theorem command_escaped (name : Text) : Escaped (command style.rules name) ↔ Escaped name :=
  (command_alike style.rules hstyle.rules name).text.symm

theorem label_escaped (name : Text) : Escaped (label style.rules name) ↔ Escaped name :=
  (label_alike style.rules hstyle.rules name).text.symm

theorem rootHeading_escaped (name : Text) (h : Paired name) :
    Separate (rootHeading style name) ∧ (Escaped (rootHeading style name) ↔ Escaped name) := by
  have hlabel : ∀ t ∈ [label style.rules name], Closed false t := by
    simpa using label_closed style hstyle name h
  have hlead : Inert "Define an object of type ".toList := by decide
  have hemph := control_separate "emph".toList [label style.rules name] (by decide) hlabel
  have hsentence := separate_append _ _ (inert_separate _ hlead) hemph
  have harguments : ∀ t ∈ [command style.rules name, "Define an object of type ".toList ++
      control "emph".toList [label style.rules name]], Closed false t := by
    simpa using ⟨command_closed style hstyle name h, hsentence.closed⟩
  have hcontrol := control_separate "defComLab".toList _ (by decide) harguments
  obtain ⟨hseparate, hescaped⟩ := paragraph_escaped _ hcontrol.closed
  refine ⟨hseparate, hescaped.trans ?_⟩
  rw [control_escaped _ _ (by decide) harguments]
  simp only [List.forall_mem_cons, List.not_mem_nil, false_implies, implies_true, and_true]
  rw [escaped_append _ _ (inert_separate _ hlead), and_iff_right hlead.escaped,
    control_escaped _ _ (by decide) hlabel, command_escaped style hstyle]
  simp only [List.forall_mem_cons, List.not_mem_nil, false_implies, implies_true, and_true]
  rw [label_escaped style hstyle, and_self]

theorem subtypeHeading_escaped (root name : Text) (hroot : Paired root) (h : Paired name) :
    Separate (subtypeHeading style (command style.rules root) name) ∧
      (Escaped (subtypeHeading style (command style.rules root) name) ↔
        Escaped root ∧ Escaped name) := by
  have harguments : ∀ t ∈ [command style.rules root, "type".toList, command style.rules name],
      Closed false t := by
    simpa using ⟨command_closed style hstyle root hroot,
      inert_closed false "type".toList (by decide), command_closed style hstyle name h⟩
  have hlead : Inert "\\subsubsection".toList := by decide
  have hlabel := bracketed_separate _ (label_closed style hstyle name h)
  have hcontrol := control_separate "commandlabsubarg".toList _ (by decide) harguments
  have hbraced := braced_separate _ hcontrol.closed
  have hfirst := separate_append _ _ (inert_separate _ hlead) hlabel
  obtain ⟨hseparate, hescaped⟩ := paragraph_escaped _ (separate_append _ _ hfirst hbraced).closed
  refine ⟨hseparate, hescaped.trans ?_⟩
  rw [escaped_append _ _ hfirst, escaped_append _ _ (inert_separate _ hlead),
    and_iff_right hlead.escaped, bracketed_escaped _ (label_closed style hstyle name h),
    label_escaped style hstyle, braced_escaped _ hcontrol.closed, control_escaped _ _ (by decide) harguments]
  simp only [List.forall_mem_cons, List.not_mem_nil, false_implies, implies_true, and_true,
    command_escaped style hstyle]
  have htype : Escaped "type".toList := by decide
  tauto

end headings

section sections
variable (style : Style) (hstyle : style.Steady) (category : Category) (hierarchy : Hierarchy)
  (hpaired : ∀ node, Shown category hierarchy.root node → Paired node.name)
include hstyle hpaired

theorem heading_name (heading : Part) (name : Text) (h : heading ∈ parts category hierarchy)
    (hname : heading.typeName? = some name) (hescaped : Escaped (heading.text style)) :
    Escaped name := by
  have hroot := hpaired hierarchy.root .root
  rcases mem_parts category hierarchy heading h with rfl | ⟨node, hnode, rfl | ⟨v, -, rfl⟩⟩
  · obtain rfl := Option.some.inj hname
    exact (rootHeading_escaped style hstyle _ hroot).2.mp hescaped
  · obtain rfl := Option.some.inj hname
    exact ((subtypeHeading_escaped style hstyle _ _ hroot (hpaired node hnode)).2.mp hescaped).2
  · cases hname

variable (hready : Everywhere Variable.Ready hierarchy.root)
include hready

/-- A part of a section closes what it opens, and is escaped if the names of
the types that are shown are. -/
theorem part_separate (part : Part) (h : part ∈ parts category hierarchy) :
    Separate (part.text style) ∧
      ((∀ node, Shown category hierarchy.root node → Escaped node.name) →
        Escaped (part.text style)) := by
  have hroot := hpaired hierarchy.root .root
  rcases mem_parts category hierarchy part h with rfl | ⟨node, hnode, rfl | ⟨v, hv, rfl⟩⟩
  · obtain ⟨hseparate, hescaped⟩ := rootHeading_escaped style hstyle hierarchy.root.name hroot
    exact ⟨hseparate, fun hnames => hescaped.mpr (hnames hierarchy.root .root)⟩
  · obtain ⟨hseparate, hescaped⟩ := subtypeHeading_escaped style hstyle hierarchy.root.name
      node.name hroot (hpaired node hnode)
    exact ⟨hseparate,
      fun hnames => hescaped.mpr ⟨hnames hierarchy.root .root, hnames node hnode⟩⟩
  · have hcontains := shown_contains category hierarchy.root node hnode
    have hown := everywhere_contains hierarchy.root node hready hcontains
    have hentry := entry_settled style hstyle v (everywhere_rendered node hown v hv)
    exact ⟨hentry.toSeparate, fun _ => hentry.escaped⟩

/-- A section is escaped exactly if the names of the types that it shows are. -/
theorem section_escaped : Escaped (render style category hierarchy) ↔
    ∀ node, Shown category hierarchy.root node → Escaped node.name := by
  have hparts := part_separate style hstyle category hierarchy hpaired hready
  rw [render_parts, escaped_flatMap _ _ (fun part hpart => (hparts part hpart).1)]
  constructor
  · intro hescaped node hnode
    obtain ⟨before, heading, after, hsplit, hname, -⟩ := shown_section category hierarchy node hnode
    have hheading : heading ∈ parts category hierarchy := by
      rw [hsplit]
      simp [headed]
    exact heading_name style hstyle category hierarchy hpaired heading node.name hheading
      hname (hescaped heading hheading)
  · intro hnames part hpart
    exact (hparts part hpart).2 hnames

end sections

end ParameterManual.Manual
