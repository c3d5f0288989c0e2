import AccessAudit.Proofs.Text.Lines
import AccessAudit.Rule.Registry

/-!
# Line ends

No rule tells whether the lines of a text end with a line feed alone or with a carriage return before
it.  Rules see a document only through its reported path and its lines, and a carriage return at the
end of a line is dropped where lines are searched and cut off where they are quoted.
-/

namespace AccessAudit

/-! ### Carriage returns -/

namespace Text

/-- A text with a carriage return before every line feed. -/
def withReturns (s : List Char) : List Char :=
  s.flatMap fun c => if c = '\n' then ['\r', '\n'] else [c]

/-- A character at the beginning of a line stays, unless it is a carriage return. -/
theorem dropReturn_cons {c : Char} (hc : c ≠ '\r') (line : List Char) :
  dropReturn (c :: line) = c :: dropReturn line
  := by
  cases line with
  | nil =>
    rw [dropReturn, if_neg (by simpa using hc)]
    rfl
  | cons x line =>
    rw [dropReturn, dropReturn, List.getLast?_cons_cons, List.dropLast_cons_cons]
    split <;> rfl

/-- Carriage returns are dropped from the lines whose first line has got one more character. -/
theorem map_dropReturn_modifyHead {c : Char} (hc : c ≠ '\r') (ls : List (List Char)) :
  (ls.modifyHead (List.cons c)).map dropReturn = (ls.map dropReturn).modifyHead (List.cons c)
  := by
  cases ls with
  | nil => rfl
  | cons line ls =>
    rw [List.modifyHead_cons, List.map_cons, List.map_cons, List.modifyHead_cons,
      dropReturn_cons hc]

/-- A text without carriage returns has lines without them. -/
theorem map_dropReturn_splitOn {s : List Char} (hs : '\r' ∉ s) :
  (s.splitOn '\n').map dropReturn = s.splitOn '\n'
  := by
  induction s with
  | nil => rfl
  | cons c s ih =>
    rw [List.mem_cons, not_or] at hs
    rw [List.splitOn_cons_eq_if_modifyHead]
    split
    · rw [List.map_cons, ih hs.2]
      rfl
    · rw [map_dropReturn_modifyHead (Ne.symm hs.1), ih hs.2]

/-- The carriage returns before line feeds are dropped with the line feeds. -/
theorem map_dropReturn_splitOn_withReturns {s : List Char} (hs : '\r' ∉ s) :
  ((withReturns s).splitOn '\n').map dropReturn = s.splitOn '\n'
  := by
  induction s with
  | nil => rfl
  | cons c s ih =>
    rw [List.mem_cons, not_or] at hs
    rw [withReturns, List.flatMap_cons, ← withReturns, List.splitOn_cons_eq_if_modifyHead c]
    by_cases hc : c = '\n'
    · rw [if_pos hc, if_pos (by simpa using hc)]
      -- The line feed ends a line that holds nothing but the carriage return.
      rw [← ih hs.2]
      rfl
    · rw [if_neg hc, if_neg (by simpa using hc), List.singleton_append,
        List.splitOn_cons_eq_if_modifyHead, if_neg (by simpa using hc),
        map_dropReturn_modifyHead (Ne.symm hs.1), ih hs.2]

end Text

/-! ### Documents that look alike -/

namespace Document

/-- Documents with the same path and the same lines, carriage returns at their ends apart. -/
structure Alike (d d' : Document) : Prop where
  file : d.file = d'.file
  lines : d.rawLines.map Text.dropReturn = d'.rawLines.map Text.dropReturn

variable {d d' : Document}

theorem numberedLines_eq (d : Document) :
  d.numberedLines = (d.rawLines.map Text.dropReturn).zipIdx.map fun (line, i) => (i + 1, line)
  := by
  rw [numberedLines, List.zipIdx_map, List.map_map]
  rfl

/-- A line is quoted without the blanks at its ends, so a carriage return there does not matter. -/
theorem lineText_succ (d : Document) (i : Nat) :
  d.lineText (i + 1)
    = String.ofList (((d.rawLines.map Text.dropReturn).map Text.trim)[i]?.getD [])
  := by
  have htrim : Text.trim ∘ Text.dropReturn = Text.trim := by
    funext line
    apply Text.trim_dropReturn
  rw [lineText, List.map_map, htrim, List.getElem?_map]
  cases d.rawLines[i]? with
  | none => rfl
  | some line => rfl

theorem Alike.numberedLines_eq (h : d.Alike d') :
  d.numberedLines = d'.numberedLines
  := by
  rw [Document.numberedLines_eq, Document.numberedLines_eq, h.lines]

theorem Alike.lineText_eq (h : d.Alike d') :
  d.lineText = d'.lineText
  := by
  funext line
  cases line with
  | zero => rfl
  | succ i => rw [lineText_succ, lineText_succ, h.lines]

theorem Alike.location_eq (h : d.Alike d') :
  d.location = d'.location
  := by
  funext line column
  rw [location, location, h.file]

/-- A text without carriage returns looks like the same text with one before every line feed. -/
theorem alike_withReturns (root path : String) {text : String} (htext : '\r' ∉ text.toList) :
  (Document.of root path (String.ofList (Text.withReturns text.toList))).Alike
    (Document.of root path text)
  := by
  constructor
  · rfl
  · rw [Document.of, Document.of, Text.lines_eq_splitOn, Text.lines_eq_splitOn,
      String.toList_ofList, Text.map_dropReturn_splitOn_withReturns htext,
      Text.map_dropReturn_splitOn htext]

end Document

/-! ### Rules on documents that look alike -/

namespace Rule

variable {d d' : Document}

theorem LineRule.findings_eq_of_alike (rule : LineRule) (h : d.Alike d') :
  rule.findings d = rule.findings d'
  := by
  simp only [findings, LineCheck.finding?, h.numberedLines_eq, h.location_eq]

theorem onLine_eq_of_alike (h : d.Alike d') :
  onLine d = onLine d'
  := by
  funext rule severity line message criterion
  rw [onLine, onLine, h.location_eq, h.lineText_eq]

/-- A structural rule finds the same in documents that look alike. -/
theorem StructuralRule.findings_eq_of_alike {rule : StructuralRule} (hrule : rule ∈ structuralRules)
    (h : d.Alike d') (page : Markup.Page) :
  rule.findings d page = rule.findings d' page
  := by
  have hline := onLine_eq_of_alike h
  simp only [structuralRules, List.mem_cons, List.not_mem_nil, or_false] at hrule
  obtain rfl | rfl | rfl | rfl | rfl | rfl | rfl := hrule
  · unfold interactiveRole roleFinding
    simp only [hline]
  · unfold formControlLabel labelFinding
    simp only [hline]
  · unfold imageAlt altFinding
    simp only [hline]
  · unfold buttonLabel buttonFinding
    simp only [hline]
  · unfold headingStructure headingFinding issueLabels
    simp only [hline, h.location_eq]
  · unfold landmarkRegions
    simp only [hline]
  · unfold colorContrast contrastFinding?
    simp only [hline]

/-- A built-in rule finds the same, in the same order, whether the lines of a text end with a line
feed alone or with a carriage return before it. -/
theorem findings_withReturns {rule : Rule} (hrule : rule ∈ builtin) (root path : String)
    {text : String} (htext : '\r' ∉ text.toList) (page : Markup.Page) :
  rule.findings (Document.of root path (String.ofList (Text.withReturns text.toList))) page
    = rule.findings (Document.of root path text) page
  := by
  have halike := Document.alike_withReturns root path htext
  rcases List.mem_append.mp hrule with hrule | hrule
  · obtain ⟨r, hr, rfl⟩ := List.mem_map.mp hrule
    apply StructuralRule.findings_eq_of_alike hr halike
  · obtain ⟨r, -, rfl⟩ := List.mem_map.mp hrule
    simp only [ofLine, r.findings_eq_of_alike halike]

/-- A text with an image between two other lines. -/
def imageText : String :=
  "const x =\n  <img /> ;\n"

/-- The page of the text. -/
def imagePage : Markup.Page :=
  ⟨[⟨"img", 2, [], false, true⟩], []⟩

/-- With other line ends, the image is found by a structural rule and by a line rule as before. -/
theorem findings_withReturns_image :
  let returned := String.ofList (Text.withReturns imageText.toList)
  returned = "const x =\r\n  <img /> ;\r\n"
    ∧ (ofStructural imageAlt).findings (Document.of "." "a.tsx" returned) imagePage
      = (ofStructural imageAlt).findings (Document.of "." "a.tsx" imageText) imagePage
    ∧ (ofLine altText).findings (Document.of "." "a.tsx" returned) imagePage
      = (ofLine altText).findings (Document.of "." "a.tsx" imageText) imagePage
    ∧ ((ofLine altText).findings (Document.of "." "a.tsx" imageText) imagePage).map (·.location)
      = [⟨"a.tsx", 2, 3⟩]
  := by
  intro returned
  have htext : '\r' ∉ imageText.toList := by decide
  refine ⟨by decide +kernel, ?_, ?_, by decide +kernel⟩
  · apply findings_withReturns _ "." "a.tsx" htext
    simp [builtin, structuralRules]
  · apply findings_withReturns _ "." "a.tsx" htext
    simp [builtin, catalog]

end Rule

end AccessAudit
