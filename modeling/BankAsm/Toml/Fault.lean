/-!
# Faults of documents

Why a text is no document. Most faults are of its form and have no text of their own;
the others are keys that clash with what the document said before.
-/

namespace BankAsm.Toml

/-- Why tables cannot grow by a key: it is taken, in a table that a header may name, or
it leads through a value that is no table. -/
inductive Clash where
  | taken (key : String) (header : Option (List String))
  | noTable (path : List String) (kind : String)
deriving DecidableEq

namespace Clash

/-- The name of the table of a header. -/
def tableText : List String → String
  | [] => "document root"
  | header => "table `" ++ ".".intercalate header ++ "`"

/-- The wording of a clash. -/
def text : Clash → String
  | .taken key none => "duplicate key `" ++ key ++ "`"
  | .taken key (some header) => "duplicate key `" ++ key ++ "` in " ++ tableText header
  | .noTable path kind =>
    "dotted key `" ++ ".".intercalate path ++ "` attempted to extend non-table type ("
      ++ kind ++ ")"

end Clash

/-- Why a text is no document: it has the wrong form, or a key of an entry or of a
header clashes with what stands before it. -/
inductive Fault where
  | malformed
  | entry (clash : Clash)
  | header (clash : Clash)
deriving DecidableEq

/-- The wording of a fault. -/
def Fault.text : Fault → String
  | .malformed => "malformed document"
  | .entry clash => clash.text
  | .header clash => "invalid table header\n" ++ clash.text

end BankAsm.Toml
