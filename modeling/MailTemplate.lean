import MailTemplate.Text.WhiteSpace
import MailTemplate.Text.Quoted
import MailTemplate.Markup.Parser
import MailTemplate.Markup.Printer
import MailTemplate.Css.Stylesheet
import MailTemplate.Css.Matching
import MailTemplate.Correction
import MailTemplate.Url.Basic
import MailTemplate.Url.Percent
import MailTemplate.Url.Host
import MailTemplate.Url.Parser
import MailTemplate.Url.FilePath
import MailTemplate.Store
import MailTemplate.Style.Inline
import MailTemplate.Style.InPlace
import MailTemplate.CommandLine
import MailTemplate.Main
import MailTemplate.Proofs.Text.Cutting
import MailTemplate.Proofs.Text.Trimming
import MailTemplate.Proofs.Text.Bytes
import MailTemplate.Proofs.Markup.Entities
import MailTemplate.Proofs.Markup.Names
import MailTemplate.Proofs.Markup.Spelling
import MailTemplate.Proofs.Markup.WellFormed
import MailTemplate.Proofs.Markup.Grammar
import MailTemplate.Proofs.Markup.OpenElements
import MailTemplate.Proofs.Markup.Reading
import MailTemplate.Proofs.Markup.Faults
import MailTemplate.Proofs.Markup.RoundTrip
import MailTemplate.Proofs.Markup.Invariant
import MailTemplate.Proofs.Markup.Numbering
import MailTemplate.Proofs.Markup.Building
import MailTemplate.Proofs.Markup.Layout
import MailTemplate.Proofs.Markup.EndTags
import MailTemplate.Proofs.Markup.Swapping
import MailTemplate.Proofs.Style.Interchange
import MailTemplate.Proofs.Style.Taking
import MailTemplate.Proofs.Style.AtOnce
import MailTemplate.Proofs.Style.Frame
import MailTemplate.Proofs.Correcting.Replacing
import MailTemplate.Proofs.Correcting.Restoring
import MailTemplate.Proofs.Style.AtRules
import MailTemplate.Proofs.Style.Holding
import MailTemplate.Proofs.Markup.Joining
import MailTemplate.Proofs.Style.Again
import MailTemplate.Proofs.Run.Files
import MailTemplate.Proofs.Run.AllOrNothing
import MailTemplate.Proofs.Markup.Lowering
import MailTemplate.Proofs.Markup.NamePlaces
import MailTemplate.Proofs.Markup.NamesRead
import MailTemplate.Proofs.Markup.Respelling
import MailTemplate.Proofs.Markup.Links
import MailTemplate.Proofs.Markup.Climbing
import MailTemplate.Proofs.Markup.Editing
import MailTemplate.Proofs.Css.Merging
import MailTemplate.Proofs.Style.Precedence
import MailTemplate.Proofs.Css.ReadBack
import MailTemplate.Proofs.Css.Meaning
import MailTemplate.Proofs.Style.OwnDeclarations
import MailTemplate.Proofs.Css.SelectorReading
import MailTemplate.Proofs.Css.Comments
import MailTemplate.Proofs.Css.Groups
import MailTemplate.Proofs.Css.SelectorPieces
import MailTemplate.Proofs.Css.Sheets
import MailTemplate.Proofs.Css.Statements
import MailTemplate.Proofs.Correcting.Lasting
import MailTemplate.Proofs.Markup.Replacement
import MailTemplate.Proofs.Markup.Walking
import MailTemplate.Proofs.Markup.Showing
import MailTemplate.Proofs.Markup.Hanging
import MailTemplate.Proofs.Style.Collecting
import MailTemplate.Proofs.Style.StylingInPlace
import MailTemplate.Proofs.Style.InPlace
import MailTemplate.Proofs.Bytes.Cuts
import MailTemplate.Proofs.Markup.Decoding
import MailTemplate.Proofs.Css.Separators
import MailTemplate.Proofs.Correcting.Factoring
