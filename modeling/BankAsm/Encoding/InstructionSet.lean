import BankAsm.Encoding.Data
import BankAsm.Encoding.Template
import BankAsm.Relocation

/-!
# The instruction set

Every form of every operation, as data. Operation codes are given out in families
that count on from a base: a branch has four forms, a binary operation five codes
and a unary one two. A register operand adds the number of the register to the
base of its form.
-/

namespace BankAsm

/-- A pattern with the template of the statements that fit it. -/
structure Form where
  pattern : Signature
  template : Template
deriving DecidableEq

namespace Form

/-- The rule of a form. -/
def rule (form : Form) : Rule := ⟨[form.pattern], form.template.encoder⟩

/-- An index register. -/
def index : Param := .kind .index

/-- A status register. -/
def status : Param := .kind .status

/-- A bare operation. -/
def plain (mnemonic : String) (code : UInt8) : Form := ⟨⟨mnemonic, []⟩, [.byte code]⟩

/-- An operation on what an empty pair of brackets stands for. -/
def stacked (mnemonic : String) (code : UInt8) : Form :=
  ⟨⟨mnemonic, [.group []]⟩, [.byte code]⟩

/-- An operation on a number. -/
def immediate (mnemonic : String) (code : UInt8) : Form :=
  ⟨⟨mnemonic, [.number]⟩, [.byte code, .number (.direct 0)]⟩

/-- An operation on what a number in brackets stands for. -/
def bracketed (mnemonic : String) (code : UInt8) : Form :=
  ⟨⟨mnemonic, [.group [.number]]⟩, [.byte code, .number (.inner 0 0)]⟩

/-- An operation on a register of a kind. -/
def onRegister (mnemonic : String) (kind : Param) (base : UInt8) : Form :=
  ⟨⟨mnemonic, [kind]⟩, [.register base (.direct 0)]⟩

/-- An operation on what an index register in brackets stands for. -/
def throughIndex (mnemonic : String) (base : UInt8) : Form :=
  ⟨⟨mnemonic, [.group [index]]⟩, [.register base (.inner 0 0)]⟩

/-- An operation on what a number and an index register in brackets stand for. -/
def displaced (mnemonic : String) (base : UInt8) : Form :=
  ⟨⟨mnemonic, [.group [.number, index]]⟩, [.register base (.inner 0 1), .number (.inner 0 0)]⟩

/-- An operation on an index register and a number. -/
def indexed (mnemonic : String) (base : UInt8) : Form :=
  ⟨⟨mnemonic, [index, .number]⟩, [.register base (.direct 0), .number (.direct 1)]⟩

/-- An operation on an index register and what a number in brackets stands for. -/
def indexedBracketed (mnemonic : String) (base : UInt8) : Form :=
  ⟨⟨mnemonic, [index, .group [.number]]⟩, [.register base (.direct 0), .number (.inner 1 0)]⟩

/-- The forms of an operation on an index or a status register. -/
def onRegisters (mnemonic : String) (base : UInt8) : List Form :=
  [onRegister mnemonic index base, onRegister mnemonic status base]

/-- The forms of a branch. -/
def branch (mnemonic : String) (base : UInt8) : List Form :=
  [plain mnemonic base, immediate mnemonic (base + 1), bracketed mnemonic (base + 2),
   stacked mnemonic (base + 3)]

/-- The forms of a binary operation. -/
def binary (mnemonic : String) (base : UInt8) : List Form :=
  [immediate mnemonic base, onRegister mnemonic index (base + 1), stacked mnemonic (base + 4)]

/-- The forms of a unary operation. -/
def unary (mnemonic : String) (base : UInt8) : List Form :=
  [plain mnemonic base, stacked mnemonic (base + 1)]

end Form

namespace InstructionSet

open Form

/-- The branches with their bases. -/
def branches : List (String × UInt8) :=
  [("race", 0x05), ("nudge", 0x09), ("jump", 0x0D), ("fork", 0x11), ("call", 0x15),
   ("lock", 0x19), ("free", 0x1D)]

/-- The binary operations with their bases. -/
def binaries : List (String × UInt8) :=
  [("add", 0x5D), ("sub", 0x62), ("addfx", 0x67), ("subfx", 0x6C),
   ("mul", 0x71), ("div", 0x76), ("mod", 0x7B),
   ("eq", 0x80), ("gt", 0x85), ("lt", 0x8A), ("neq", 0x8F), ("ngt", 0x94), ("nlt", 0x99),
   ("and", 0x9E), ("or", 0xA3), ("xor", 0xA8),
   ("zsh", 0xAD), ("ssh", 0xB2), ("lsh", 0xB7), ("rot", 0xBC)]

/-- The unary operations with their bases. -/
def unaries : List (String × UInt8) :=
  [("clz", 0xC1), ("ctz", 0xC3), ("nsa", 0xC5), ("not", 0xC7), ("truthy", 0xC9),
   ("falsey", 0xCB)]

/-- The forms that move bytes between registers and memory. -/
def transfers : List Form :=
  [throughIndex "load" 0x3B, immediate "load" 0x3E, bracketed "load" 0x3F,
   displaced "load" 0x40, indexed "load" 0x43, indexedBracketed "load" 0x46,
   throughIndex "store" 0x49, bracketed "store" 0x4C, displaced "store" 0x4D,
   indexedBracketed "store" 0x50]

/-- The forms of every operation of the machine. -/
def operations : List Form :=
  [plain "done" 0x00, plain "halt" 0x01, plain "reset" 0x02, plain "return" 0x03,
   plain "nop" 0x04]
  ++ branches.flatMap (fun entry => branch entry.1 entry.2)
  ++ plain "set" 0x21 :: onRegisters "set" 0x22
  ++ plain "clear" 0x28 :: onRegisters "clear" 0x29
  ++ onRegisters "copy" 0x2F
  ++ onRegisters "sync" 0x35
  ++ transfers
  ++ [plain "inc" 0x53, onRegister "inc" index 0x54, stacked "inc" 0x57,
      plain "dec" 0x58, onRegister "dec" index 0x59, stacked "dec" 0x5C]
  ++ binaries.flatMap (fun entry => binary entry.1 entry.2)
  ++ unaries.flatMap (fun entry => unary entry.1 entry.2)
  ++ plain "push" 0xCD :: onRegisters "push" 0xCE
  ++ plain "pop" 0xD5 :: onRegisters "pop" 0xD6
  ++ [plain "drop" 0xDC, plain "dupe" 0xDD, plain "swap" 0xDE, plain "peek" 0xDF,
      plain "void" 0xE0]
  ++ plain "queue" 0xE1 :: onRegisters "queue" 0xE2
  ++ [immediate "queue" 0xE8, stacked "queue" 0xE9]
  ++ [plain "flush" 0xEA, plain "drain" 0xEB, plain "array" 0xEC,
      plain "databank" 0xED, plain "codebank" 0xEE, plain "stackbank" 0xEF, plain "iobank" 0xF0,
      plain "copydata" 0xF1, plain "copycode" 0xF2, plain "copystack" 0xF3, plain "copyio" 0xF4]

/-- The forms of the directives that the layout reads itself. -/
def directives : List Form :=
  [⟨⟨"ASSIGN", [.number]⟩, [.number (.direct 0)]⟩,
   ⟨⟨"LOCATE", [.number]⟩, [.byte Relocation.bankMode, .number (.direct 0)]⟩,
   ⟨⟨"LOCATE", [.group [.number]]⟩, [.byte Relocation.addressMode, .number (.inner 0 0)]⟩,
   ⟨⟨"LOCATE", [.number, .group [.number]]⟩,
    [.byte Relocation.bothMode, .number (.direct 0), .number (.inner 1 0)]⟩]

/-- The rule of `DATA`, whose operands its signature does not show. -/
def data : Rule := ⟨[⟨"DATA", []⟩], Datum.encoder⟩

/-- The rules of the language, in order. -/
def rules : List Rule := (operations ++ directives).map Form.rule ++ [data]

end InstructionSet

/-- The encoding table of the language. -/
def instructionSet : EncodingTable := EncodingTable.empty.registerAll InstructionSet.rules

end BankAsm
