import AccessAudit.Main
import AccessAudit.Markup.Grammar.Parser
import AccessAudit.Proofs.Scan.Description
import AccessAudit.Proofs.Scan.Selection
import AccessAudit.Proofs.Grammar.Position
import AccessAudit.Proofs.Grammar.Termination
import AccessAudit.Proofs.Grammar.Diagnosis
import AccessAudit.Proofs.Grammar.TagLines
import AccessAudit.Proofs.Rule.Matches
import AccessAudit.Proofs.Scan.Attribution
import AccessAudit.Proofs.Grammar.Outcome
import AccessAudit.Proofs.Grammar.Beginnings
import AccessAudit.Proofs.Grammar.Yields
import AccessAudit.Proofs.Markup.Faults
import AccessAudit.Proofs.Markup.TagLines
import AccessAudit.Proofs.Markup.Written
import AccessAudit.Proofs.Markup.WrittenTrees
import AccessAudit.Proofs.Text.Alphanumeric
import AccessAudit.Proofs.Grammar.Names
import AccessAudit.Proofs.Grammar.Values
import AccessAudit.Proofs.Grammar.Attributes
import AccessAudit.Proofs.Grammar.Elements
import AccessAudit.Proofs.Markup.RoundTrip
import AccessAudit.Proofs.Json.Reading
import AccessAudit.Proofs.Report.RoundTrip
import AccessAudit.Proofs.Command.Verdict
import AccessAudit.Proofs.Rule.OpeningTag
import AccessAudit.Proofs.Rule.RequiredAttributes
import AccessAudit.Proofs.Rule.Excuses
import AccessAudit.Proofs.Grammar.LineOrder
import AccessAudit.Proofs.Markup.Components
import AccessAudit.Proofs.Markup.Resolution
import AccessAudit.Proofs.Scan.Order
import AccessAudit.Proofs.Markup.Headings
import AccessAudit.Proofs.Report.Building
import AccessAudit.Proofs.Rule.LineByLine
import AccessAudit.Proofs.Rule.LineEnds
import AccessAudit.Proofs.Rule.PlainTags
import AccessAudit.Proofs.Color.Spelling
import AccessAudit.Proofs.Rule.ColorContrast
import AccessAudit.Proofs.Color.ClassList
import AccessAudit.Proofs.Color.Suggestions
import AccessAudit.Proofs.Contrast.LargeText
import AccessAudit.Proofs.Color.HexText
import AccessAudit.Proofs.Color.Hexadecimal
import AccessAudit.Proofs.Color.Numbers
import AccessAudit.Proofs.Contrast.Ratio
import AccessAudit.Proofs.Rule.TagCase
import AccessAudit.Proofs.Settings.Fields
import AccessAudit.Proofs.Path.Components
import AccessAudit.Proofs.Path.Relative
import AccessAudit.Proofs.Discovery.Exclusion
import AccessAudit.Proofs.Settings.Resolution
import AccessAudit.Proofs.Rule.IconButtons
import AccessAudit.Proofs.Rule.TabOrder
import AccessAudit.Proofs.Markup.RadixNumbers
