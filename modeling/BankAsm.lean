import BankAsm.Main
import BankAsm.Signature.Pattern
import BankAsm.Proofs.Position
import BankAsm.Proofs.Feed
import BankAsm.Proofs.Token.Form
import BankAsm.Proofs.Token.Lines
import BankAsm.Proofs.Token.Accepted
import BankAsm.Proofs.Token.Reading
import BankAsm.Proofs.Token.Spelled
import BankAsm.Proofs.Token.Writing
import BankAsm.Proofs.Statement.Brackets
import BankAsm.Proofs.Statement.Clauses
import BankAsm.Proofs.Statement.Grammar
import BankAsm.Proofs.Statement.Lines
import BankAsm.Proofs.Encoding.Vector
import BankAsm.Proofs.Encoding.Opcode
import BankAsm.Proofs.Encoding.Decoding
import BankAsm.Proofs.Program.Agreement
import BankAsm.Proofs.Assembly.Bounds
import BankAsm.Proofs.Assembly.Labels
import BankAsm.Proofs.Assembly.Progress
import BankAsm.Proofs.Assembly.Regions
import BankAsm.Proofs.Assembly.Streaming
import BankAsm.Proofs.Assembly.Finishing
import BankAsm.Proofs.Rewording.Basic
import BankAsm.Proofs.Encoding.Matching
import BankAsm.Proofs.Program.Mirror
import BankAsm.Proofs.Rewording.Assembly
import BankAsm.Proofs.Rewording.Program
import BankAsm.Proofs.Assembly.Renaming
import BankAsm.Proofs.Rewording.Contents
import BankAsm.Proofs.Token.Literal
import BankAsm.Proofs.Assembly.Predefined
import BankAsm.Proofs.Layout.Placing
import BankAsm.Proofs.Restating.Basic
import BankAsm.Proofs.Restating.Program
import BankAsm.Proofs.Dump.Assembly
import BankAsm.Proofs.Signature.Admission
import BankAsm.Proofs.Encoding.Dispatch
import BankAsm.Proofs.Signature.Choices
import BankAsm.Proofs.Signature.Pattern
import BankAsm.Proofs.Assembly.Positions
import BankAsm.Proofs.Program.Reach
import BankAsm.Proofs.Assembly.Failing
import BankAsm.Proofs.Assembly.Filling
import BankAsm.Proofs.Assembly.Widening
import BankAsm.Proofs.Text.Denotation
import BankAsm.Proofs.Settings.ByteValue
import BankAsm.Proofs.Settings.Layers
import BankAsm.Proofs.Encoding.Acceptance
import BankAsm.Proofs.Assembly.Splitting
