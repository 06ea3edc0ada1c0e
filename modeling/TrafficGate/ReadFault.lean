import TrafficGate.Text.Utf8
/-!
  # Files that cannot be read

  Why the text of a file is not to be had: the file is not there, or is none, or lies below a file,
  or cannot have its name, or its bytes are not text.

  Main fact: **`textOf_encode`** (the bytes of a text are its text).
-/

namespace TrafficGate

/-- Why a file could not be read as text. -/
inductive ReadFault where
  /-- There is no such file. -/
  | missing
  /-- It is a directory. -/
  | directory
  /-- A file stands where its path needs a directory. -/
  | notDirectory
  /-- Its path, or a name in it, is longer than any that there is. -/
  | nameTooLong
  /-- Its bytes are not UTF-8. -/
  | notText
  /-- Anything else that the system reports. -/
  | system (reason : Text)
  deriving DecidableEq, Repr

namespace ReadFault

/-- The text of a fault. -/
def message : ReadFault → Text
  | missing => "No such file or directory (os error 2)".toList
  | directory => "Is a directory (os error 21)".toList
  | notDirectory => "Not a directory (os error 20)".toList
  | nameTooLong => "File name too long (os error 36)".toList
  | notText => "stream did not contain valid UTF-8".toList
  | system reason => reason

/-- The text that bytes are. -/
def textOf (bytes : Bytes) : Except ReadFault Text :=
  match Utf8.decode? bytes with
  | some t => .ok t
  | none => .error notText

/-- **The bytes of a text are its text.** -/
theorem textOf_encode (t : Text) : textOf (Utf8.encode t) = .ok t := by
  simp [textOf, Utf8.decode?_encode]

end ReadFault

end TrafficGate
