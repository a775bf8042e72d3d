import SourceMarkup.Main
import SourceMarkup.Proofs.Clipboard.Prepare
import SourceMarkup.Proofs.Command.Agreement
import SourceMarkup.Proofs.Command.Files
import SourceMarkup.Proofs.Command.Output
import SourceMarkup.Proofs.Form.Percent
import SourceMarkup.Proofs.Form.Request
import SourceMarkup.Proofs.Markup.Items
import SourceMarkup.Proofs.Markup.Numeral
import SourceMarkup.Proofs.Markup.Restyle
import SourceMarkup.Proofs.Markup.Settle
import SourceMarkup.Proofs.Scan.Alike
import SourceMarkup.Proofs.Scan.Cover
import SourceMarkup.Proofs.Scan.JavaLines
import SourceMarkup.Proofs.Scan.JavaPlain
import SourceMarkup.Proofs.Scan.JavaRestart
import SourceMarkup.Proofs.Scan.JavadocTags
import SourceMarkup.Proofs.Scan.Progress
import SourceMarkup.Proofs.Scan.XmlLayout
import SourceMarkup.Proofs.Settings.Params
import SourceMarkup.Proofs.Settings.Spelling
import SourceMarkup.Proofs.Lexeme.XmlLayout
