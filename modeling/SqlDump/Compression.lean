import SqlDump.Codec.Bzip2
import SqlDump.Codec.Gzip
import SqlDump.Codec.Xz
import SqlDump.Codec.Zstd
import SqlDump.Storage.Path
import SqlDump.Text.LowerCase
/-!
# Compression

A dump may be compressed. The extension of its file name tells how.
-/

namespace SqlDump

/-- How a file is compressed. -/
inductive Compression where
  | plain
  | gzip
  | bzip2
  | xz
  | zstd
deriving DecidableEq, Repr

namespace Compression

/-- The extensions of compressed files, in lower case. -/
def extensions : List (String × Compression) :=
  [("gz", gzip), ("gzip", gzip), ("bz2", bzip2), ("bzip2", bzip2), ("xz", xz), ("lzma", xz),
    ("zst", zstd), ("zstd", zstd)]

/-- The compression that an extension stands for, in any mix of capital and small letters. An extension
that is not UTF-8 stands for none. -/
def ofExtension (extension : Storage.Name) : Compression :=
  match String.fromUTF8? extension.toByteArray with
  | none => plain
  | some text =>
    let lower := Text.lowerCase text.toList
    match extensions.find? fun entry => entry.1.toList == lower with
    | some entry => entry.2
    | none => plain

/-- The compression that a path stands for. -/
def ofPath (path : Storage.Path) : Compression :=
  match path.extension? with
  | some extension => ofExtension extension
  | none => plain

/-- Why compressed data cannot be read. -/
inductive Error where
  | gzip (cause : Codec.Gzip.Error)
  | bzip2 (cause : Codec.Bzip2.Error)
  | xz (cause : Codec.Xz.Error)
  | zstd (cause : Codec.Zstd.Error)
deriving DecidableEq, Repr

/-- The text of an error. -/
def Error.message : Error → String
  | .gzip cause => cause.message
  | .bzip2 cause => cause.message
  | .xz cause => cause.message
  | .zstd cause => cause.message

/-- The content of a file, read to its end. -/
def decode (compression : Compression) (data : ByteArray) : Except Error ByteArray :=
  match compression with
  | plain => .ok data
  | gzip => (Codec.Gzip.decode data).mapError .gzip
  | bzip2 => (Codec.Bzip2.decode data).mapError .bzip2
  | xz => (Codec.Xz.decode data).mapError .xz
  | zstd => (Codec.Zstd.decode data).mapError .zstd

end Compression

end SqlDump
