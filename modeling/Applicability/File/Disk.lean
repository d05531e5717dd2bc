import Applicability.File.Basic

namespace Applicability

/-- A file system as a program meets it. A write that fails may still leave something behind. -/
structure Disk (δ : Type) where
  read : δ → Files
  write : δ → String → String → Except FileError Unit × δ

/-- What was written is read back, and what stands at another place is read as before. -/
structure Disk.Lawful {δ : Type} (disk : Disk δ) (Same : δ → String → String → Prop) : Prop where
  read_written : ∀ {d d' : δ} {path text : String}, disk.write d path text = (.ok (), d') →
    disk.read d' path = .ok (.text text)
  read_other : ∀ {d d' : δ} {path text other : String}, disk.write d path text = (.ok (), d') →
    ¬Same d other path → ∀ f, disk.read d' other = .ok f ↔ disk.read d other = .ok f

end Applicability
