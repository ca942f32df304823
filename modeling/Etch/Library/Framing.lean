import Mathlib.Data.List.Basic

/-!
# Length-prefixed framing of a stream

A sender puts a header of fixed size in front of every body; the header
carries the length of the body.  The concatenation of the frames is the
stream.  A receiver alternates between waiting for a header and waiting for a
body of a known length; `Awaits` says which bodies are still to come on the
bytes it has not consumed, and its lemmas are the receiver's two transitions.
Nothing here depends on how the stream is cut into pieces.
-/

namespace Etch.Library.Framing

variable {α : Type*}

/-- A header of fixed size which carries the length of a body. -/
structure HeaderFormat (α : Type*) where
  size : Nat
  encode : Nat → List α
  decode : List α → Option Nat
  /-- The lengths a header can carry. -/
  Fits : Nat → Prop
  size_pos : 0 < size
  length_encode : ∀ count, (encode count).length = size
  decode_encode : ∀ count, Fits count → decode (encode count) = some count

namespace HeaderFormat

variable (format : HeaderFormat α)

/-- One frame: the header of `body`, then `body`. -/
def frame (body : List α) : List α :=
  format.encode body.length ++ body

/-- The stream of a sequence of bodies. -/
def frames (bodies : List (List α)) : List α :=
  bodies.flatMap format.frame

@[simp]
theorem frames_cons (body : List α) (rest : List (List α)) :
    format.frames (body :: rest) =
      format.frame body ++ format.frames rest := rfl

@[simp]
theorem frames_append (left right : List (List α)) :
    format.frames (left ++ right) =
      format.frames left ++ format.frames right := by
  simp [frames]

@[simp]
theorem length_frame (body : List α) :
    (format.frame body).length = format.size + body.length := by
  simp [frame, format.length_encode]

theorem frames_eq_nil {bodies : List (List α)}
    (empty : format.frames bodies = []) : bodies = [] := by
  cases bodies with
  | nil => rfl
  | cons body rest =>
      have size := congrArg List.length empty
      have positive := format.size_pos
      simp only [frames_cons, List.length_append, length_frame,
        List.length_nil] at size
      omega

/--
What a receiver still awaits on the unconsumed bytes `pending`: with no body
announced they are the frames of `rest`; with a body of `count` elements
announced, they are that body and the frames after it.
-/
def Awaits (announced : Option Nat) (pending : List α)
    (rest : List (List α)) : Prop :=
  match announced with
  | none => pending = format.frames rest
  | some count =>
      ∃ body later, rest = body :: later ∧ body.length = count ∧
        pending = body ++ format.frames later

@[simp]
theorem awaits_none_iff {pending : List α} {rest : List (List α)} :
    format.Awaits none pending rest ↔ pending = format.frames rest :=
  Iff.rfl

theorem Awaits.nil {rest : List (List α)}
    (awaits : format.Awaits none [] rest) : rest = [] :=
  format.frames_eq_nil awaits.symm

theorem Awaits.length_le {count : Nat} {pending : List α}
    {rest : List (List α)} (awaits : format.Awaits (some count) pending rest) :
    count ≤ pending.length := by
  obtain ⟨body, later, rfl, rfl, rfl⟩ := awaits
  simp

/-- With a header's worth of bytes, the next body is announced. -/
theorem Awaits.header {header more : List α} {rest : List (List α)}
    (awaits : format.Awaits none (header ++ more) rest)
    (size : header.length = format.size) :
    ∃ body later, rest = body :: later ∧
      header = format.encode body.length ∧
      format.Awaits (some body.length) more rest := by
  cases rest with
  | nil =>
      have positive := format.size_pos
      have none : header ++ more = [] := awaits
      simp_all
  | cons body later =>
      rw [awaits_none_iff, frames_cons, frame, List.append_assoc] at awaits
      have split :=
        List.append_inj awaits (by rw [size, format.length_encode])
      exact ⟨body, later, rfl, split.1, body, later, rfl, rfl, split.2⟩

/-- With a body's worth of bytes, the announced body is the next one. -/
theorem Awaits.body {body more : List α} {rest : List (List α)}
    (awaits : format.Awaits (some body.length) (body ++ more) rest) :
    ∃ later, rest = body :: later ∧ format.Awaits none more later := by
  obtain ⟨next, later, rfl, size, equal⟩ := awaits
  have split := List.append_inj equal size.symm
  exact ⟨later, by rw [split.1], split.2⟩

/-- Before a whole header has come there is another body to come. -/
theorem Awaits.exists_cons {pending : List α} {rest : List (List α)}
    (awaits : format.Awaits none pending rest) (some : pending ≠ []) :
    ∃ body later, rest = body :: later ∧
      format.size + body.length ≤ pending.length := by
  cases rest with
  | nil => exact absurd awaits some
  | cons body later =>
      refine ⟨body, later, rfl, ?_⟩
      rw [awaits_none_iff] at awaits
      simp [awaits]

end HeaderFormat

end Etch.Library.Framing
