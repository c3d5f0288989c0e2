import AccessAudit.Proofs.Grammar.TagLines
import AccessAudit.Proofs.Rule.HeadingStructure
import AccessAudit.Proofs.Rule.Matches
import AccessAudit.Proofs.Scan.Selection
import AccessAudit.Proofs.Text.Lines

/-!
# Places of findings

A finding names the file it was found in and a line of the text, and quotes that line.  A structural
rule names no column and, the rule on landmarks apart, a line on which an opening tag begins; a line
rule names the column at which one of its patterns matches.
-/

namespace AccessAudit

/-! ### Lines of documents -/

namespace Document

theorem lineText_of {root path text : String} {line : Nat} {raw : List Char} (hpos : 1 ≤ line)
    (h : (text.toList.splitOn '\n')[line - 1]? = some raw) :
  (Document.of root path text).lineText line = String.ofList (Text.trim raw)
  := by
  obtain ⟨i, rfl⟩ := Nat.exists_eq_add_of_le' hpos
  rw [Nat.add_sub_cancel] at h
  rw [lineText, Document.of, Text.lines_eq_splitOn, h, Option.getD_some]

/-- The lines that line rules see are those of the text, without carriage returns. -/
theorem mem_numberedLines {root path text : String} {number : Nat} {line : List Char}
    (h : (number, line) ∈ (Document.of root path text).numberedLines) :
  1 ≤ number ∧ ∃ raw, (text.toList.splitOn '\n')[number - 1]? = some raw
    ∧ line = Text.dropReturn raw
  := by
  obtain ⟨⟨raw, i⟩, hmem, heq⟩ := List.mem_map.mp h
  obtain ⟨rfl, rfl⟩ := Prod.mk.inj heq
  rw [List.mem_zipIdx_iff_getElem?, Document.of, Text.lines_eq_splitOn] at hmem
  refine ⟨Nat.le_add_left 1 i, raw, ?_, rfl⟩
  rw [Nat.add_sub_cancel]
  apply hmem

end Document

/-! ### Structural rules -/

namespace Rule

open Markup

/-- A finding that quotes a line of its document and names no column. -/
structure Quotes (d : Document) (line : Nat) (f : Finding) : Prop where
  location : f.location = d.location line 0
  code : f.code = d.lineText line
  labels : ∀ label ∈ f.labels, label.location.file = d.file

/-- The line of one of the elements of a page. -/
def IsElementLine (page : Page) (line : Nat) : Prop :=
  ∃ e ∈ page.elements, e.line = line

/-- The findings on the elements of a page that a rule selects. -/
theorem quotes_of_mem_map {d : Document} {page : Page} {select : Element → Bool}
    {finding : Document → Element → Finding} {f : Finding}
    (hf : f ∈ (page.elements.filter select).map (finding d))
    (hquotes : ∀ e, Quotes d e.line (finding d e)) :
  ∃ line, Quotes d line f ∧ IsElementLine page line
  := by
  obtain ⟨e, he, rfl⟩ := List.mem_map.mp hf
  exact ⟨e.line, hquotes e, e, (List.mem_filter.mp he).1, rfl⟩

/-- The findings on contrast. -/
theorem quotes_of_mem_colorContrast {d : Document} {page : Page} {f : Finding}
    (hf : f ∈ colorContrast.findings d page) :
  ∃ line, Quotes d line f ∧ IsElementLine page line
  := by
  obtain ⟨e, he, hf⟩ := List.mem_filterMap.mp hf
  simp only [contrastFinding?, Option.bind_eq_bind, Option.bind_eq_some_iff] at hf
  obtain ⟨classes, -, outcome, -, hf⟩ := hf
  split at hf
  · cases hf
  · cases hf
    exact ⟨e.line, ⟨rfl, rfl, List.forall_mem_nil _⟩, e, he, rfl⟩

/-- The findings on headings. -/
theorem quotes_of_mem_headingStructure {d : Document} {page : Page} {f : Finding}
    (hf : f ∈ headingStructure.findings d page) :
  ∃ line, Quotes d line f ∧ IsElementLine page line
  := by
  simp only [headingStructure] at hf
  split at hf
  · cases hf
  rename_i hsome
  obtain ⟨issue, hissue, rfl⟩ := List.mem_map.mp hf
  refine ⟨_, ⟨rfl, rfl, ?_⟩, ?_⟩
  · intro label hlabel
    simp only [headingFinding, issueLabels] at hlabel
    split at hlabel
    · obtain ⟨line, -, rfl⟩ := List.mem_map.mp hlabel
      rfl
    · cases hlabel
  -- The line is the first one of the fault, or else that of the first heading.
  have hheading : ∃ e ∈ page.headings, e.line
      = issue.lines.head?.getD (firstLine (page.headings.map Element.line)) := by
    cases hlines : issue.lines.head? with
    | some line => apply line_of_mem_headingIssues hissue (List.mem_of_mem_head? hlines)
    | none => apply (firstLine_isLeast fun hnil => hsome (List.isEmpty_iff.mpr hnil)).1
  obtain ⟨e, he, hline⟩ := hheading
  exact ⟨e, (List.mem_filter.mp he).1, hline⟩

/-- The findings on landmarks. -/
theorem quotes_of_mem_landmarkRegions {d : Document} {page : Page} {f : Finding}
    (hf : f ∈ landmarkRegions.findings d page) :
  Quotes d 1 f
  := by
  simp only [landmarkRegions] at hf
  split at hf
  · cases hf
  · rw [List.mem_singleton.mp hf]
    exact ⟨rfl, rfl, List.forall_mem_nil _⟩

/-- A finding of a structural rule quotes the line of an element, or the first line if it is about
landmarks. -/
theorem quotes_of_mem_structuralRules {r : StructuralRule} (hr : r ∈ structuralRules)
    {d : Document} {page : Page} {f : Finding} (hf : f ∈ r.findings d page) :
  ∃ line, Quotes d line f ∧ (IsElementLine page line ∨ r.id = landmarkRegions.id ∧ line = 1)
  := by
  have onElement : (∃ line, Quotes d line f ∧ IsElementLine page line) →
      ∃ line, Quotes d line f
        ∧ (IsElementLine page line ∨ r.id = landmarkRegions.id ∧ line = 1) := by
    rintro ⟨line, hquotes, helement⟩
    exact ⟨line, hquotes, .inl helement⟩
  simp only [structuralRules, List.mem_cons, List.not_mem_nil, or_false] at hr
  obtain rfl | rfl | rfl | rfl | rfl | rfl | rfl := hr
  · exact onElement (quotes_of_mem_map hf fun _ => ⟨rfl, rfl, List.forall_mem_nil _⟩)
  · exact onElement (quotes_of_mem_map hf fun _ => ⟨rfl, rfl, List.forall_mem_nil _⟩)
  · exact onElement (quotes_of_mem_map hf fun _ => ⟨rfl, rfl, List.forall_mem_nil _⟩)
  · exact onElement (quotes_of_mem_map hf fun _ => ⟨rfl, rfl, List.forall_mem_nil _⟩)
  · apply onElement (quotes_of_mem_headingStructure hf)
  · exact ⟨1, quotes_of_mem_landmarkRegions hf, .inr ⟨rfl, rfl⟩⟩
  · apply onElement (quotes_of_mem_colorContrast hf)

/-! ### Line rules -/

/-- A column, counted in bytes from 1, at which one of the patterns of a rule matches inside a
line. -/
def MatchesAt (r : LineRule) (line : List Char) (column : Nat) : Prop :=
  ∃ check ∈ r.checks, ∃ before after, line = before ++ after ∧ after ≠ []
    ∧ Text.byteLength before + 1 = column
    ∧ (check.pattern.matchAt ⟨before.getLast?, after⟩).isSome = true

/-- A match in a line without its carriage return is one in the line. -/
theorem MatchesAt.of_dropReturn {r : LineRule} {raw : List Char} {column : Nat}
    (h : MatchesAt r (Text.dropReturn raw) column) :
  MatchesAt r raw column
  := by
  unfold Text.dropReturn at h
  split at h
  · rename_i hlast
    obtain ⟨start, rfl⟩ := List.getLast?_eq_some_iff.mp hlast
    rw [List.dropLast_concat] at h
    obtain ⟨check, hcheck, before, after, rfl, -, hcolumn, hmatch⟩ := h
    refine ⟨check, hcheck, before, after ++ ['\r'], List.append_assoc .., ?_, hcolumn, ?_⟩
    · apply List.concat_ne_nil _ _
    · apply Pattern.matchAt_append_return hmatch
  · apply h

/-- A finding of a line rule quotes the line on which one of its patterns matches. -/
theorem matchesAt_of_mem_findings {r : LineRule} {root path text : String} {f : Finding}
    (hf : f ∈ r.findings (Document.of root path text)) :
  f.location.file = Path.relativeTo root path ∧ f.labels = [] ∧ 1 ≤ f.location.line
    ∧ ∃ raw, (text.toList.splitOn '\n')[f.location.line - 1]? = some raw
        ∧ f.code = String.ofList (Text.trim raw) ∧ MatchesAt r raw f.location.column
  := by
  obtain ⟨⟨number, line⟩, hline, hf⟩ := List.mem_flatMap.mp hf
  obtain ⟨check, hcheck, hf⟩ := List.mem_filterMap.mp hf
  obtain ⟨offset, hoffset, rfl⟩ := Option.map_eq_some_iff.mp hf
  obtain ⟨hpos, raw, hraw, rfl⟩ := Document.mem_numberedLines hline
  obtain ⟨before, after, hsplit, hne, hlength, hmatch⟩ := Pattern.matchAt_of_firstMatch? hoffset
  refine ⟨rfl, rfl, hpos, raw, hraw, ?_, ?_⟩
  · rw [Text.trim_dropReturn]
  · apply MatchesAt.of_dropReturn
    exact ⟨check, hcheck, before, after, hsplit, hne, congrArg (· + 1) hlength, hmatch⟩

end Rule

/-! ### Findings of a scan -/

namespace Scanner

/-- A finding that names a file and a line of a text, and quotes that line. -/
structure Located (file text : String) (f : Finding) : Prop where
  place : f.location.file = file
  labels : ∀ label ∈ f.labels, label.location.file = file
  pos_line : 1 ≤ f.location.line
  line_le : f.location.line ≤ text.toList.count '\n' + 1
  code : ∃ raw, (text.toList.splitOn '\n')[f.location.line - 1]? = some raw
    ∧ f.code = String.ofList (Text.trim raw)

/-- A finding without a column that quotes the line on which the tag of an element of the page
begins, unless it is about landmarks. -/
structure OnTag (page : Markup.Page) (f : Finding) : Prop where
  column : f.location.column = 0
  tag : f.rule ≠ Rule.landmarkRegions.id →
    '<' ∈ f.code.toList ∧ ∃ e ∈ page.elements, e.line = f.location.line

/-- A finding whose column is one of the line it names, at which a pattern of a rule matches. -/
def OnMatch (r : Rule.LineRule) (text : String) (f : Finding) : Prop :=
  ∃ raw, (text.toList.splitOn '\n')[f.location.line - 1]? = some raw
    ∧ Rule.MatchesAt r raw f.location.column

/-- A finding with all that it says about its place. -/
structure Attributed (file text : String) (page : Markup.Page) (f : Finding) : Prop where
  located : Located file text f
  place : (∃ r ∈ Rule.structuralRules, f.rule = r.id ∧ OnTag page f)
    ∨ ∃ r ∈ Rule.catalog, f.rule = r.id ∧ OnMatch r text f

/-- What quotes a line of the text is located there. -/
theorem Located.of_quotes {root path text : String} {line : Nat} {f : Finding}
    (h : Rule.Quotes (Document.of root path text) line f) (hpos : 1 ≤ line)
    (hle : line ≤ text.toList.count '\n' + 1) :
  Located (Path.relativeTo root path) text f
  := by
  obtain ⟨hlocation, hcode, hlabels⟩ := h
  have hline : f.location.line = line := by rw [hlocation]; rfl
  have hlength : line - 1 < (text.toList.splitOn '\n').length := by
    rw [Text.length_splitOn]
    omega
  refine ⟨?_, hlabels, hline ▸ hpos, hline ▸ hle, ?_⟩
  · rw [hlocation]
    rfl
  · obtain ⟨raw, hraw⟩ : ∃ raw, (text.toList.splitOn '\n')[line - 1]? = some raw :=
      ⟨_, List.getElem?_eq_getElem hlength⟩
    refine ⟨raw, ?_, ?_⟩
    · rw [hline]
      apply hraw
    · rw [hcode, Document.lineText_of hpos hraw]

/-- What quotes a line on which a `<` stands contains it. -/
theorem mem_code_of_tagLine {root path text : String} {line : Nat} {f : Finding}
    (h : Rule.Quotes (Document.of root path text) line f)
    (htag : Markup.TagLine text.toList line) :
  '<' ∈ f.code.toList
  := by
  obtain ⟨before, after, htext, rfl⟩ := htag
  obtain ⟨raw, hraw, hmem⟩ := Text.exists_mem_line before after (c := '<') (by decide)
  rw [← htext] at hraw
  rw [← Nat.add_sub_cancel (before.count '\n') 1] at hraw
  rw [h.code, Document.lineText_of (Nat.le_add_left 1 _) hraw, String.toList_ofList]
  apply Text.mem_trim hmem (by decide)

theorem line_le_of_tagLine {s : List Char} {line : Nat} (h : Markup.TagLine s line) :
  1 ≤ line ∧ line ≤ s.count '\n' + 1
  := by
  obtain ⟨before, after, rfl, rfl⟩ := h
  rw [List.count_append]
  omega

/-- The findings of a structural rule on a page whose elements stand on lines with a `<`. -/
theorem attributed_structural {r : Rule.StructuralRule} (hr : r ∈ Rule.structuralRules)
    {root path text : String} {page : Markup.Page} {f : Finding}
    (hpage : ∀ e ∈ page.elements, Markup.TagLine text.toList e.line)
    (hf : f ∈ r.findings (Document.of root path text) page) :
  Attributed (Path.relativeTo root path) text page f
  := by
  have hrule : f.rule = r.id :=
    Rule.signs_of_mem_builtin (List.mem_append_left _ (List.mem_map_of_mem hr)) _ page f hf
  obtain ⟨line, hquotes, hline⟩ := Rule.quotes_of_mem_structuralRules hr hf
  have hcolumn : f.location.column = 0 := by rw [hquotes.location]; rfl
  rcases hline with ⟨e, he, rfl⟩ | ⟨hid, rfl⟩
  · have htag := hpage e he
    obtain ⟨hpos, hle⟩ := line_le_of_tagLine htag
    refine ⟨Located.of_quotes hquotes hpos hle, .inl ⟨r, hr, hrule, hcolumn, fun _ => ⟨?_, ?_⟩⟩⟩
    · apply mem_code_of_tagLine hquotes htag
    · exact ⟨e, he, by rw [hquotes.location]; rfl⟩
  · refine ⟨Located.of_quotes hquotes (Nat.le_refl 1) (Nat.le_add_left 1 _), ?_⟩
    exact .inl ⟨r, hr, hrule, hcolumn, fun hne => absurd (hrule.trans hid) hne⟩

/-- The findings of a line rule. -/
theorem attributed_line {r : Rule.LineRule} (hr : r ∈ Rule.catalog) {root path text : String}
    {page : Markup.Page} {f : Finding} (hf : f ∈ r.findings (Document.of root path text)) :
  Attributed (Path.relativeTo root path) text page f
  := by
  have hrule : f.rule = r.id := Rule.signs_ofLine r _ page f hf
  obtain ⟨hfile, hlabels, hpos, raw, hraw, hcode, hmatch⟩ := Rule.matchesAt_of_mem_findings hf
  have hle : f.location.line ≤ text.toList.count '\n' + 1 := by
    have := (List.getElem?_eq_some_iff.mp hraw).1
    rw [Text.length_splitOn] at this
    omega
  refine ⟨⟨hfile, ?_, hpos, hle, raw, hraw, hcode⟩, .inr ⟨r, hr, hrule, raw, hraw, hmatch⟩⟩
  rw [hlabels]
  nofun

/-- The findings of every built-in rule on a page whose elements stand on lines with a `<`. -/
theorem attributed_of_mem_builtin {rule : Rule} (hrule : rule ∈ Rule.builtin)
    {root path text : String} {page : Markup.Page} {f : Finding}
    (hpage : ∀ e ∈ page.elements, Markup.TagLine text.toList e.line)
    (hf : f ∈ rule.findings (Document.of root path text) page) :
  Attributed (Path.relativeTo root path) text page f
  := by
  cases List.mem_append.mp hrule with
  | inl h =>
    obtain ⟨r, hr, rfl⟩ := List.mem_map.mp h
    apply attributed_structural hr hpage hf
  | inr h =>
    obtain ⟨r, hr, rfl⟩ := List.mem_map.mp h
    apply attributed_line hr hf

/-- Every finding on a text that is read names the file relative to the root and a line of the text,
and quotes that line, whichever parser the text is read with, if only it marks tags.  A finding of a
structural rule names no column and, unless it is about landmarks, the line on which the tag of an
element begins; the column of a finding of a line rule is one at which a pattern of the rule matches
in the line. -/
theorem scanText_attributed {parser : Markup.Parser} (hparser : parser.MarksTags)
    (root : Option String) (settings : Settings) (path text : String) {findings : List Finding}
    (h : (builtin parser root settings).scanText path text = .ok findings) {f : Finding}
    (hf : f ∈ findings) :
  ∃ reader ∈ Markup.Reader.builtin parser, reader.handles path = true
    ∧ ∃ page, reader.read path text = .ok page
        ∧ Attributed (Path.relativeTo (root.getD settings.scope.root) path) text page f
  := by
  unfold scanText at h
  split at h
  · cases h
    cases hf
  · rename_i reader hreader
    split at h
    · rename_i page hpage
      cases h
      have hmem : reader ∈ Markup.Reader.builtin parser := List.mem_of_find?_eq_some hreader
      obtain ⟨rule, hrule, hf⟩ := List.mem_flatMap.mp hf
      have hhandles : reader.handles path = true := by
        unfold Markup.Reader.find? at hreader
        simpa using List.find?_some hreader
      refine ⟨reader, hmem, hhandles, page, hpage, ?_⟩
      apply attributed_of_mem_builtin (List.mem_filter.mp hrule).1
        (Markup.tagLine_of_mem_builtin hparser hmem hpage) hf
    · cases h

/-- An image on the second line of a text whose lines end in carriage returns. -/
theorem scanText_attributed_image :
  let parser := Markup.Grammar.parser
  parser.MarksTags
    ∧ ∃ reader ∈ Markup.Reader.builtin parser, reader.handles "/p/a.tsx" = true
    ∧ ∃ page, reader.read "/p/a.tsx" "const x =\r\n <img />\r\n" = .ok page
        ∧ Attributed "a.tsx" "const x =\r\n <img />\r\n" page
            (Rule.altFinding ⟨"a.tsx", ["const x =\r".toList, " <img />\r".toList, []]⟩
              ⟨"img", 2, [], false, true⟩)
  := by
  intro parser
  have hparser : parser.MarksTags := Markup.Grammar.parser_marksTags
  obtain ⟨findings, hok, hmem⟩ : ∃ findings, (builtin parser (some "/p") .default).scanText
      "/p/a.tsx" "const x =\r\n <img />\r\n" = .ok findings
        ∧ Rule.altFinding ⟨"a.tsx", ["const x =\r".toList, " <img />\r".toList, []]⟩
            ⟨"img", 2, [], false, true⟩ ∈ findings := by
    refine ⟨_, rfl, ?_⟩
    decide +kernel
  have hfile : Path.relativeTo "/p" "/p/a.tsx" = "a.tsx" := by decide +kernel
  exact ⟨hparser, hfile ▸ scanText_attributed hparser (some "/p") .default "/p/a.tsx" _ hok hmem⟩

end Scanner

end AccessAudit
