import DottedLisp.Run

/-!
# Transcripts

What a session wrote, what happened in it, and how it ended. Transcripts follow each other: after
one that ended before its time nothing more is written.
-/

namespace DottedLisp

/-- The transcript of a session that may end with a `φ`. -/
structure Transcript (φ : Type) where
  /-- The text that was written. -/
  output : Text
  /-- What happened, in order. -/
  notes : List Note
  /-- How the session ended. -/
  exit : Except φ Unit

namespace Transcript

variable {φ : Type}

/-- Write a text. -/
def write (s : Text) : Transcript φ := ⟨s, [], .ok ()⟩

/-- Leave notes. -/
def note (notes : List Note) : Transcript φ := ⟨[], notes, .ok ()⟩

/-- End before the time. -/
def stop (e : φ) : Transcript φ := ⟨[], [], .error e⟩

/-- One session after the other. -/
def append (x y : Transcript φ) : Transcript φ :=
  match x.exit with
  | .error _ => x
  | .ok () => ⟨x.output ++ y.output, x.notes ++ y.notes, y.exit⟩

instance : Append (Transcript φ) := ⟨append⟩

instance : Inhabited (Transcript φ) := ⟨write []⟩

theorem append_of_ok {x : Transcript φ} (h : x.exit = .ok ()) (y : Transcript φ) :
    x ++ y = ⟨x.output ++ y.output, x.notes ++ y.notes, y.exit⟩ := by
  show append x y = _
  simp [append, h]

theorem append_of_error {x : Transcript φ} {e : φ} (h : x.exit = .error e) (y : Transcript φ) :
    x ++ y = x := by
  show append x y = _
  simp [append, h]

@[simp] theorem exit_write (s : Text) : (write s : Transcript φ).exit = .ok () := rfl

@[simp] theorem exit_note (notes : List Note) : (note notes : Transcript φ).exit = .ok () := rfl

@[simp] theorem exit_stop (e : φ) : (stop e : Transcript φ).exit = .error e := rfl

/-- **A session that goes on in another ends as that one does.** -/
@[simp] theorem exit_append (x y : Transcript φ) : (x ++ y).exit = x.exit.bind fun _ => y.exit := by
  cases hx : x.exit with
  | error e => rw [append_of_error hx, hx]; rfl
  | ok u => rw [append_of_ok hx]; rfl

theorem write_append_write (s t : Text) :
    (.write s ++ .write t : Transcript φ) = .write (s ++ t) := by
  rw [append_of_ok rfl]
  rfl

theorem output_note_append (notes : List Note) (x : Transcript φ) :
    (.note notes ++ x).output = x.output := by
  rw [append_of_ok rfl]
  rfl

theorem output_append_note (x : Transcript φ) (notes : List Note) :
    (x ++ .note notes).output = x.output := by
  cases hx : x.exit with
  | error e => rw [append_of_error hx]
  | ok u =>
    rw [append_of_ok hx]
    exact List.append_nil x.output

/-- **It does not matter how sessions are grouped.** -/
theorem append_assoc (x y z : Transcript φ) : x ++ y ++ z = x ++ (y ++ z) := by
  show append (append x y) z = append x (append y z)
  rcases x with ⟨xo, xn, _ | _⟩
  · rfl
  · rcases y with ⟨yo, yn, _ | _⟩ <;> simp [append]

/-- The transcript with what ended it seen in another way. -/
def mapExit {ψ : Type} (f : φ → ψ) (x : Transcript φ) : Transcript ψ :=
  ⟨x.output, x.notes, x.exit.mapError f⟩

/-- Several sessions one after the other. -/
def concat (ts : List (Transcript φ)) : Transcript φ := ts.foldr append (write [])

end Transcript

end DottedLisp
