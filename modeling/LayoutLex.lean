import LayoutLex.Catalogue.Wildcard
import LayoutLex.Literal.Character
import LayoutLex.Main
import LayoutLex.Proofs.Classification
import LayoutLex.Proofs.FileReport
import LayoutLex.Proofs.Grammar
import LayoutLex.Proofs.LineByLine
import LayoutLex.Proofs.LiteralTokens
import LayoutLex.Proofs.Literals
import LayoutLex.Proofs.Lossless
import LayoutLex.Proofs.Modes
import LayoutLex.Proofs.NumericText
import LayoutLex.Proofs.Questions
import LayoutLex.Proofs.Registered
import LayoutLex.Proofs.Sessions
import LayoutLex.Proofs.SpacingKinds
import LayoutLex.Proofs.StringText
import LayoutLex.Proofs.Excerpt
import LayoutLex.Proofs.ManifestFaults
import LayoutLex.Proofs.ManifestFormat
import LayoutLex.Proofs.Moves
import LayoutLex.Proofs.Wildcard
import LayoutLex.Proofs.UnresolvedSymbols
import LayoutLex.Proofs.TokensAlone
import LayoutLex.Proofs.LineNumbers
import LayoutLex.Proofs.Cells
import LayoutLex.Proofs.Registrations
import LayoutLex.Proofs.Characters
