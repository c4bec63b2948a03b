import EntitySql.Proofs.Sql.Symbol
import EntitySql.Sql.Buffer

/-!
# What is written to a buffer

`Buffer.Extends` says that a buffer is another one with some output behind its innermost frame. The
output is known by its symbols only, since texts that meet in a frame are merged. Closing a frame
gives the output since it was opened, and the buffer as it was then (`Extends.popFrame`).
-/

namespace EntitySql.Sql.Buffer

variable {b b' b'' : Buffer} {f g : Fragment}

/-- The second buffer is the first one with this output behind its innermost frame. -/
def Extends (b b' : Buffer) (output : Fragment) : Prop :=
  match b.frames with
  | [] => b'.frames = [] ∧ b'.root.symbols = b.root.symbols ++ output.symbols
  | frame :: frames =>
    b'.root = b.root ∧ ∃ frame', b'.frames = frame' :: frames
      ∧ frame'.symbols = frame.symbols ++ output.symbols

namespace Extends

theorem refl (b : Buffer) : b.Extends b .empty := by
  rw [Extends]
  cases hb : b.frames with
  | nil => exact ⟨rfl, (List.append_nil _).symm⟩
  | cons frame frames => exact ⟨rfl, frame, rfl, (List.append_nil _).symm⟩

/-- A buffer with output appended extends itself by it. -/
theorem append (b : Buffer) (output : Fragment) : b.Extends (b.append output) output := by
  rw [Extends, Buffer.append]
  cases hb : b.frames with
  | nil => exact ⟨rfl, Fragment.symbols_append _ _⟩
  | cons frame frames => exact ⟨rfl, _, rfl, Fragment.symbols_append _ _⟩

/-- Buffers can be extended in several steps. -/
theorem trans (h : b.Extends b' f) (h' : b'.Extends b'' g) : b.Extends b'' (f ++ g) := by
  rw [Extends] at h h' ⊢
  cases hb : b.frames with
  | nil =>
    rw [hb] at h
    obtain ⟨hframes, hroot⟩ := h
    rw [hframes, hroot] at h'
    rwa [Fragment.symbols_append, ← List.append_assoc]
  | cons frame frames =>
    rw [hb] at h
    obtain ⟨hroot, frame', hframes, hframe⟩ := h
    rw [hframes, hroot] at h'
    obtain ⟨hroot', frame'', hframes', hframe'⟩ := h'
    refine ⟨hroot', frame'', hframes', ?_⟩
    rw [hframe', hframe, Fragment.symbols_append, List.append_assoc]

/-- A frame that was opened, written to and closed leaves the buffer as it was. -/
theorem popFrame (h : b.pushFrame.Extends b' f) :
    b'.popFrame.2 = b ∧ b'.popFrame.1.symbols = f.symbols := by
  obtain ⟨root, frames⟩ := b
  obtain ⟨root', frames'⟩ := b'
  obtain ⟨hroot, frame', hframes, hframe⟩ := h
  obtain rfl : root' = root := hroot
  obtain rfl : frames' = frame' :: frames := hframes
  exact ⟨rfl, hframe⟩

/-- What is written to a buffer without frames is in its root. -/
theorem root (h : Extends .empty b f) : b.depth = 0 ∧ b.root.symbols = f.symbols := by
  obtain ⟨hframes, hroot⟩ := h
  exact ⟨by rw [depth, hframes, List.length_nil], hroot⟩

end Extends

end EntitySql.Sql.Buffer
