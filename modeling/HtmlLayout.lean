import HtmlLayout.Main
import HtmlLayout.Proofs.AttributeNames
import HtmlLayout.Proofs.ByteInput
import HtmlLayout.Proofs.CommandOptions
import HtmlLayout.Proofs.Delivery
import HtmlLayout.Proofs.Depth
import HtmlLayout.Proofs.Doctypes
import HtmlLayout.Proofs.Edits
import HtmlLayout.Proofs.EntryPoints
import HtmlLayout.Proofs.Faults
import HtmlLayout.Proofs.FirstStop
import HtmlLayout.Proofs.Formattable
import HtmlLayout.Proofs.Injection
import HtmlLayout.Proofs.LimitedOutput
import HtmlLayout.Proofs.LineBreaks
import HtmlLayout.Proofs.LineStarts
import HtmlLayout.Proofs.PartialOutput
import HtmlLayout.Proofs.Plaintext
import HtmlLayout.Proofs.Preformatted
import HtmlLayout.Proofs.Reparse
import HtmlLayout.Proofs.Rules
import HtmlLayout.Proofs.StackWalk
import HtmlLayout.Proofs.TagNames
import HtmlLayout.Proofs.TextRuns
import HtmlLayout.Proofs.Unambiguous
import HtmlLayout.Proofs.Unescape
import HtmlLayout.Proofs.Utf8
import HtmlLayout.Proofs.VoidElements
import HtmlLayout.Session
