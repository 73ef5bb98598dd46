import StateBuffer.Source.Set

/-!
The fingerprint of a set of files: one digest over the dot paths and the stored texts of all files
in order.
-/

namespace StateBuffer

/-- A SHA-256 value, thirty-two bytes. -/
abbrev Digest := Bytes

namespace Digest

/-- The digest of digests put one after the other. -/
def combine (first : Digest) (rest : List Digest) : Digest := sha256 (first ++ rest.flatten)

def zero : Digest := List.replicate 32 0

def text (d : Digest) : Bytes := Bytes.hex d

def short (d : Digest) : Bytes := d.text.take 12

end Digest

/-- The digest of one file: its dot path and its text. -/
def SourceFile.fingerprint (f : SourceFile) : Digest :=
  Digest.combine (sha256 f.dotPath) [f.hash]

def SourceSet.fingerprint (s : SourceSet) : Digest :=
  Digest.combine Digest.zero (s.files.toList.map SourceFile.fingerprint)

end StateBuffer
