/-!
# Vocabulary

The words of the language. None of them can be a label.
-/

namespace BankAsm.Vocabulary

/-- Words that direct the layout instead of standing for an operation. -/
def directives : List String := ["LOCATE", "DATA", "ASSIGN"]

/-- Words that stand for an operation of the machine. -/
def operations : List String :=
  ["nop", "return", "reset", "halt", "done",
   "jump", "fork", "call", "race", "nudge", "lock", "free",
   "set", "clear", "copy", "sync", "load", "store",
   "inc", "dec", "add", "sub", "addfx", "subfx", "mul", "div", "mod",
   "and", "or", "xor", "zsh", "ssh", "lsh", "rot",
   "eq", "gt", "lt", "neq", "ngt", "nlt",
   "not", "clz", "ctz", "nsa", "truthy", "falsey",
   "push", "pop", "drop", "dupe", "swap", "peek", "void",
   "queue", "flush", "drain", "array", "length",
   "databank", "codebank", "stackbank", "iobank",
   "copydata", "copycode", "copystack", "copyio"]

/-- The index registers. -/
def indexRegisters : List String := ["x", "y", "z"]

/-- The status registers. -/
def statusRegisters : List String := ["pc", "sp", "fx"]

/-- The pointer registers. -/
def pointerRegisters : List String := ["cb", "sb", "db"]

/-- The names of the characters that cannot be written as themselves, with their codes. -/
def controlCharacters : List (String × UInt8) :=
  [("NUL", 0x00), ("SOH", 0x01), ("STX", 0x02), ("ETX", 0x03),
   ("EOT", 0x04), ("ENQ", 0x05), ("ACK", 0x06), ("BEL", 0x07),
   ("BS", 0x08), ("HT", 0x09), ("LF", 0x0A), ("VT", 0x0B),
   ("FF", 0x0C), ("CR", 0x0D), ("SO", 0x0E), ("SI", 0x0F),
   ("DLE", 0x10), ("DC1", 0x11), ("DC2", 0x12), ("DC3", 0x13),
   ("DC4", 0x14), ("NAK", 0x15), ("SYN", 0x16), ("ETB", 0x17),
   ("CAN", 0x18), ("EM", 0x19), ("SUB", 0x1A), ("ESC", 0x1B),
   ("FS", 0x1C), ("GS", 0x1D), ("RS", 0x1E), ("US", 0x1F),
   ("DEL", 0x7F)]

/-- Whether a word is a directive. -/
def isDirective (word : String) : Bool := directives.contains word

/-- Whether a word opens a statement. -/
def isMnemonic (word : String) : Bool := operations.contains word || isDirective word

/-- Whether a word belongs to the language. -/
def isWord (word : String) : Bool :=
  isMnemonic word || indexRegisters.contains word || statusRegisters.contains word
    || pointerRegisters.contains word

/-- The code of a named control character. -/
def controlCode? (name : String) : Option UInt8 := controlCharacters.lookup name

/-- The noun for a statement that opens with a mnemonic. -/
def noun (mnemonic : String) : String :=
  if isDirective mnemonic then "directive" else "instruction"

end BankAsm.Vocabulary
