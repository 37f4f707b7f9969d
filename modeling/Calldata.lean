import Calldata.Files.Disk
import Calldata.Main
import Calldata.Proofs.Guarded
import Calldata.Proofs.HeadTail
import Calldata.Proofs.PrefixFree
import Calldata.Proofs.Reencoding
import Calldata.Proofs.Safety
import Calldata.Proofs.ShownValues
import Calldata.Proofs.Surroundings
import Calldata.Proofs.Truncation
import Calldata.Proofs.TypeGrammar
import Calldata.Proofs.CanonicalNames
import Calldata.Proofs.QuotedTexts
import Calldata.Proofs.SettingsFile
import Calldata.Proofs.Integers
import Calldata.Proofs.Literals
import Calldata.Proofs.ShownArguments
import Calldata.Proofs.Offsets
import Calldata.Proofs.LiteralGrammar
import Calldata.Proofs.SignatureTexts
import Calldata.Proofs.StaticTypes
import Calldata.Proofs.Flattening
import Calldata.Proofs.FirstRefusals
import Calldata.Proofs.Offences
import Calldata.Proofs.SignedWords
import Calldata.Proofs.SelectedCalls
import Calldata.Proofs.Loading
import Calldata.Proofs.CappedSizes
import Calldata.Proofs.IdentifierTexts
import Calldata.Proofs.IdentifierOrder
import Calldata.Proofs.Storing
import Calldata.Proofs.SettingsEdits
import Calldata.Proofs.SettingsRuns
