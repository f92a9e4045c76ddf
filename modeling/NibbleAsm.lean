import NibbleAsm.Main
import NibbleAsm.Proofs.Outcome
import NibbleAsm.Proofs.Effect
import NibbleAsm.Proofs.Proper
import NibbleAsm.Proofs.Run
import NibbleAsm.Proofs.Statement
import NibbleAsm.Proofs.Fit
import NibbleAsm.Proofs.Definitions
import NibbleAsm.Proofs.Assembly
import NibbleAsm.Proofs.Coherence
import NibbleAsm.Proofs.Likeness
import NibbleAsm.Proofs.Inclusion
import NibbleAsm.Proofs.JoinedText
import NibbleAsm.Proofs.SymbolName
import NibbleAsm.Proofs.Meaning
import NibbleAsm.Proofs.MachineWord
import NibbleAsm.Proofs.Place
import NibbleAsm.Proofs.Pending
import NibbleAsm.Proofs.Termination
import NibbleAsm.Proofs.Circularity
import NibbleAsm.Proofs.Attribution
import NibbleAsm.Proofs.Excerpt
import NibbleAsm.Proofs.Image
import NibbleAsm.Proofs.Extension
import NibbleAsm.Proofs.Constants
import NibbleAsm.Proofs.Formatting
import NibbleAsm.Proofs.Reading
import NibbleAsm.Proofs.Outputs
import NibbleAsm.Proofs.Session
import NibbleAsm.Proofs.Correspondence
import NibbleAsm.Proofs.Numeral
import NibbleAsm.Proofs.Encoding
import NibbleAsm.Proofs.Decoding
import NibbleAsm.Proofs.Expansion
import NibbleAsm.Proofs.Bracketed
import NibbleAsm.Proofs.Element
import NibbleAsm.Proofs.StoredText
import NibbleAsm.Proofs.LongString
import NibbleAsm.Proofs.SelfDelimiting
import NibbleAsm.Proofs.Redefinition
import NibbleAsm.Proofs.Listing
import NibbleAsm.Proofs.Interchange
import NibbleAsm.Proofs.EditDistance
import NibbleAsm.Proofs.Suggestion
