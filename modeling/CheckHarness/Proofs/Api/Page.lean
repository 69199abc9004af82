import CheckHarness.Api.Page
import CheckHarness.Proofs.Html.Escape
import CheckHarness.Proofs.Text.Replace

namespace CheckHarness.Page

open Html (entities escape escapeChars unescapeChars writtenChar)

/-- The text of several lines. -/
def joined (lines : List String) : List Char :=
  ['\n'].intercalate (lines.map String.toList)

/-- The lines of the template before, between and after its two placeholders. -/
def pieceLines : List (List String) :=
  [template.take 4 ++ ["    <title>"],
    " checker</title>" :: (template.drop 5).take 8 ++ ["    <h1>"],
    " checker</h1>" :: template.drop 14]

/-- The template is its pieces with the placeholders between them. -/
theorem toList_template : ("\n".intercalate template).toList = joined template := by
  rw [String.toList_intercalate, joined, String.toList_ofList]

theorem template_eq :
    joined template = placeholder.toList.intercalate (pieceLines.map joined) := by
  have htitle : "    <title>\x7b\x7bservice\x7d\x7d checker</title>".toList =
      "    <title>".toList ++ (placeholder.toList ++ " checker</title>".toList) := by
    rw [placeholder]
    repeat rw [String.toList_ofList]
    rfl
  have hheading : "    <h1>\x7b\x7bservice\x7d\x7d checker</h1>".toList =
      "    <h1>".toList ++ (placeholder.toList ++ " checker</h1>".toList) := by
    rw [placeholder]
    repeat rw [String.toList_ofList]
    rfl
  have hlines : template.map String.toList =
      (template.take 4).map String.toList ++
        "    <title>\x7b\x7bservice\x7d\x7d checker</title>".toList ::
          (((template.drop 5).take 8).map String.toList ++
            "    <h1>\x7b\x7bservice\x7d\x7d checker</h1>".toList ::
              (template.drop 14).map String.toList) := rfl
  rw [joined, hlines, htitle, Text.intercalate_cut, hheading, ← List.cons_append,
    Text.intercalate_cut]
  simp only [pieceLines, joined, List.map_cons, List.map_nil, List.map_append,
    List.intercalate_cons_cons, List.intercalate_singleton, List.cons_append, List.append_assoc]

/-- No line of a piece has the beginning of a placeholder in it. -/
theorem clear_pieceLines :
    ∀ line ∈ pieceLines.flatten.map String.toList, Text.Clear placeholder.toList line := by
  simp only [pieceLines, template, placeholder, List.take_succ_cons, List.take_zero,
    List.drop_succ_cons, List.drop_zero, List.flatten_cons, List.flatten_nil, List.cons_append,
    List.nil_append, List.append_nil, List.map_cons, List.map_nil]
  repeat rw [String.toList_ofList]
  decide +kernel

theorem toList_placeholder :
    placeholder.toList = ['{', '{', 's', 'e', 'r', 'v', 'i', 'c', 'e', '}', '}'] :=
  String.toList_ofList

theorem placeholder_ne_nil : placeholder.toList ≠ [] := by
  rw [toList_placeholder]
  exact List.cons_ne_nil _ _

/-- No placeholder begins in a piece of the template. -/
theorem clear_pieces : ∀ piece ∈ pieceLines.map joined, Text.Clear placeholder.toList piece := by
  have hnewline : '\n' ∉ placeholder.toList := by
    rw [toList_placeholder]
    decide
  rw [List.forall_mem_map]
  intro lines hlines
  apply Text.clear_intercalate placeholder_ne_nil hnewline
  intro line hline
  apply clear_pieceLines
  obtain ⟨text, htext, rfl⟩ := List.mem_map.mp hline
  exact List.mem_map_of_mem (List.mem_flatten_of_mem hlines htext)

/-- The page has the escaped name in place of each placeholder. -/
theorem toList_render (serviceName : String) :
    (render serviceName).toList =
      (escape serviceName).toList.intercalate (pieceLines.map joined) := by
  rw [render, String.toList_ofList, toList_template, template_eq, Html.toList_escape]
  exact Text.replaceAll_intercalate placeholder_ne_nil _ clear_pieces

/-- Replacing one character after the other writes every character of a text in its own form. So of
the characters with entities an escaped text only has ampersands, each of which begins an entity; it
stands for the text it was made of, and for no other. The template has two placeholders. The page
for a name, whatever is in it, is the template with the escaped name in place of both, and no more
is changed. -/
theorem render_escaped :
    (∀ text : List Char,
      escapeChars text = text.flatMap writtenChar ∧
      '<' ∉ escapeChars text ∧ '>' ∉ escapeChars text ∧ '"' ∉ escapeChars text ∧
      (∀ after, '&' :: after <:+ escapeChars text →
        ∃ entity ∈ ["&amp;", "&lt;", "&gt;", "&quot;"], entity.toList <+: '&' :: after) ∧
      unescapeChars (escapeChars text) = text) ∧
    (∀ name other, escape name = escape other → name = other) ∧
    ∃ before between after : List Char,
      ("\n".intercalate template).toList =
        before ++ placeholder.toList ++ between ++ placeholder.toList ++ after ∧
      (∀ piece ∈ [before, between, after], ¬ placeholder.toList <:+: piece) ∧
      ∀ name, (render name).toList =
        before ++ (escape name).toList ++ between ++ (escape name).toList ++ after := by
  refine ⟨fun text => ⟨Html.escapeChars_eq_flatMap text, ?_, ?_, ?_, ?_,
    Html.unescapeChars_escapeChars text⟩, fun _ _ hescape => Html.escape_injective hescape, ?_⟩
  · exact Html.notMem_escapeChars (by decide) (by decide) text
  · exact Html.notMem_escapeChars (by decide) (by decide) text
  · exact Html.notMem_escapeChars (by decide) (by decide) text
  · intro after hsuffix
    obtain ⟨entry, hentry, hbegins⟩ := Html.exists_entity_of_suffix hsuffix
    exact ⟨entry.2, List.mem_map_of_mem hentry, hbegins⟩
  · have hintercalate : ∀ (separator before between after : List Char),
        separator.intercalate [before, between, after] =
          before ++ separator ++ between ++ separator ++ after := by
      intro separator before between after
      rw [List.intercalate_cons_cons, List.intercalate_cons_cons, List.intercalate_singleton]
      simp only [List.append_assoc]
    refine ⟨_, _, _, ?_, fun piece hpiece => (clear_pieces piece hpiece).lacks, fun name => ?_⟩
    · rw [toList_template, template_eq]
      exact hintercalate ..
    · rw [toList_render]
      exact hintercalate ..

/-- A name that holds a placeholder and an entity is shown as it is. -/
theorem render_escaped_placeholder :
    (∃ entity ∈ ["&amp;", "&lt;", "&gt;", "&quot;"], entity.toList <+: '&' :: "amp;lt;".toList) ∧
    ∃ before between after : List Char,
      (render "\x7b\x7bservice\x7d\x7d&lt;").toList =
        before ++ "\x7b\x7bservice\x7d\x7d&amp;lt;".toList ++ between ++
          "\x7b\x7bservice\x7d\x7d&amp;lt;".toList ++ after := by
  obtain ⟨hescape, -, before, between, after, -, -, hrender⟩ := render_escaped
  have hname : escape "\x7b\x7bservice\x7d\x7d&lt;" = "\x7b\x7bservice\x7d\x7d&amp;lt;" := by
    decide +kernel
  constructor
  · obtain ⟨-, -, -, -, hampersand, -⟩ := hescape "&lt;".toList
    have hescaped : escapeChars "&lt;".toList = '&' :: "amp;lt;".toList := by decide +kernel
    exact hampersand "amp;lt;".toList (hescaped ▸ List.suffix_refl _)
  · refine ⟨before, between, after, ?_⟩
    rw [hrender, hname]

end CheckHarness.Page
