/-!
# Errors of Zstandard files
-/

namespace SqlDump.Codec.Zstd

/-- Why a Zstandard file cannot be read. -/
inductive Error where
  | incompleteFrame
  | unknownFrame
  | corrupt
  | wrongCheck
  | unsupported
  | windowTooLarge
  | wrongDictionary
  | noDictionary
  | wrongSize
  | wrongLiteralsHeader
deriving DecidableEq, Repr

/-- The text of an error. -/
def Error.message : Error → String
  | .incompleteFrame => "incomplete frame"
  | .unknownFrame => "Unknown frame descriptor"
  | .corrupt => "Data corruption detected"
  | .wrongCheck => "Restored data doesn't match checksum"
  | .unsupported => "Unsupported frame parameter"
  | .windowTooLarge => "Frame requires too much memory for decoding"
  | .wrongDictionary => "Dictionary mismatch"
  | .noDictionary => "Dictionary is corrupted"
  | .wrongSize => "Src size is incorrect"
  | .wrongLiteralsHeader => "Header of Literals' block doesn't respect format specification"

/-- A value that is there unless the data is corrupt. -/
def orCorrupt {α : Type} : Option α → Except Error α
  | some x => .ok x
  | none => .error .corrupt

end SqlDump.Codec.Zstd
