import Etch.Library.Framing

/-!
# Reassembling a framed stream from pieces

A receiver is handed the stream in pieces of any size.  It keeps what it
cannot use yet in `saved` and completes that with the front of the next piece:
`accept` is one such step.  The receiver tracks the stream in the sense of
`Tracks`, which every step preserves while the unconsumed bytes get fewer.

A receiver whose store is bounded follows these steps as long as it never
has to keep part of a body that does not fit.  `Whole` says this of the
stream and its pieces alone: no piece ends inside such a body.
-/

namespace Etch.Library.Framing

variable {α : Type*}

/-- The nonempty bodies among `bodies`. -/
def occupied (bodies : List (List α)) : List (List α) :=
  bodies.filter fun body => !body.isEmpty

@[simp]
theorem occupied_nil : occupied ([] : List (List α)) = [] := rfl

theorem occupied_cons {body : List α} (filled : body ≠ [])
    (rest : List (List α)) :
    occupied (body :: rest) = body :: occupied rest := by
  simp [occupied, filled]

theorem occupied_eq_self {bodies : List (List α)} :
    occupied bodies = bodies ↔ ∀ body ∈ bodies, body ≠ [] := by
  simp [occupied, List.filter_eq_self]

/-- What a receiver keeps between pieces of the stream. -/
structure Receiver (α : Type*) where
  /-- The length of the body to come, once its header has been read. -/
  announced : Option Nat
  /-- The front of the header or body to come. -/
  saved : List α

/-- A receiver that has been handed nothing. -/
def Receiver.start : Receiver α := ⟨none, []⟩

/-- What one step of a receiver leaves. -/
structure Reply (α : Type*) where
  receiver : Receiver α
  pending : List α
  delivered : List (List α)

namespace HeaderFormat

variable (format : HeaderFormat α)

/-- The size of the header or body to come. -/
def need (receiver : Receiver α) : Nat :=
  receiver.announced.getD format.size

/-- Use a complete header or body; `none` is a refused header. -/
def complete (announced : Option Nat) (item pending : List α) :
    Option (Reply α) :=
  match announced with
  | some _ => some ⟨.start, pending, [item]⟩
  | none =>
      match format.decode item with
      | none => none
      | some 0 => some ⟨.start, pending, []⟩
      | some (count + 1) => some ⟨⟨some (count + 1), []⟩, pending, []⟩

/-- One step of a receiver on the rest of a piece. -/
def accept (receiver : Receiver α) (pending : List α) :
    Option (Reply α) :=
  let missing := format.need receiver - receiver.saved.length
  if missing ≤ pending.length then
    format.complete receiver.announced
      (receiver.saved ++ pending.take missing) (pending.drop missing)
  else
    some ⟨⟨receiver.announced, receiver.saved ++ pending⟩, [], []⟩

theorem complete_none_eq_some {item pending : List α} {reply : Reply α}
    (done : format.complete none item pending = some reply) :
    ∃ count, format.decode item = some count ∧
      reply =
        ⟨⟨if count = 0 then none else some count, []⟩, pending, []⟩ := by
  simp only [complete] at done
  split at done
  · exact nomatch done
  · rename_i decoded
    exact ⟨0, decoded, (Option.some.inj done).symm⟩
  · rename_i count decoded
    exact ⟨count + 1, decoded, (Option.some.inj done).symm⟩

theorem accept_of_enough {receiver : Receiver α} {pending : List α}
    (enough : format.need receiver ≤
      receiver.saved.length + pending.length) :
    format.accept receiver pending =
      format.complete receiver.announced
        (receiver.saved ++
          pending.take (format.need receiver - receiver.saved.length))
        (pending.drop (format.need receiver - receiver.saved.length)) :=
  if_pos (by omega)

theorem accept_of_short {receiver : Receiver α} {pending : List α}
    (short : receiver.saved.length + pending.length <
      format.need receiver) :
    format.accept receiver pending =
      some ⟨⟨receiver.announced, receiver.saved ++ pending⟩, [], []⟩ :=
  if_neg (by omega)

/--
The receiver is in step with a stream of which `ahead` is not consumed and
`rest` is not delivered: what it saved is the front of the item to come.
-/
structure Tracks (receiver : Receiver α) (ahead : List α)
    (rest : List (List α)) : Prop where
  awaits : format.Awaits receiver.announced (receiver.saved ++ ahead) rest
  saved_lt : receiver.saved.length < format.need receiver
  fits : ∀ body ∈ rest, format.Fits body.length

theorem Tracks.start {bodies : List (List α)}
    (fits : ∀ body ∈ bodies, format.Fits body.length) :
    format.Tracks .start (format.frames bodies) bodies :=
  ⟨rfl, format.size_pos, fits⟩

variable {format}

/-- At the end of the stream everything has been delivered. -/
theorem Tracks.finished {receiver : Receiver α} {rest : List (List α)}
    (tracks : format.Tracks receiver [] rest) :
    receiver = .start ∧ rest = [] := by
  obtain ⟨announced, saved⟩ := receiver
  have awaits := tracks.awaits
  have short := tracks.saved_lt
  simp only [List.append_nil] at awaits
  cases announced with
  | some count =>
      have enough := awaits.length_le
      simp only [need, Option.getD_some] at short
      omega
  | none =>
      have empty : saved = [] := by
        by_contra some
        obtain ⟨body, later, -, enough⟩ := awaits.exists_cons _ some
        simp only [need, Option.getD_none] at short
        omega
      subst empty
      exact ⟨rfl, awaits.nil⟩

/-- A completed header announces the next body, or skips an empty one. -/
private theorem Tracks.complete_header {item pending future : List α}
    {rest : List (List α)} (size : item.length = format.size)
    (awaits : format.Awaits none (item ++ (pending ++ future)) rest)
    (fits : ∀ body ∈ rest, format.Fits body.length) :
    ∃ reply later, format.complete none item pending = some reply ∧
      reply.pending = pending ∧ later <:+ rest ∧
      occupied rest = reply.delivered ++ occupied later ∧
      format.Tracks reply.receiver (reply.pending ++ future) later := by
  obtain ⟨body, later, rfl, rfl, announced⟩ := awaits.header _ size
  have decoded : format.decode (format.encode body.length) =
      some body.length :=
    format.decode_encode _ (fits body List.mem_cons_self)
  cases body with
  | nil =>
      have skipped : format.Awaits (some ([] : List α).length)
          ([] ++ (pending ++ future)) ([] :: later) := announced
      obtain ⟨later', equal, awaits'⟩ := skipped.body
      obtain rfl : later = later' := (List.cons.inj equal).2
      refine ⟨⟨.start, pending, []⟩, later, ?_, rfl,
        List.suffix_cons _ _, rfl, awaits', format.size_pos,
        fun body member => fits body (List.mem_cons_of_mem _ member)⟩
      simp only [complete]
      rw [decoded]
      rfl
  | cons first others =>
      refine ⟨⟨⟨some (first :: others).length, []⟩, pending, []⟩,
        _, ?_, rfl, List.suffix_rfl, rfl, announced, ?_, fits⟩
      · simp only [complete]
        rw [decoded]
        rfl
      · simp [need]

/-- A completed body is delivered. -/
private theorem Tracks.complete_body {item pending future : List α}
    {rest : List (List α)} (filled : item ≠ [])
    (awaits : format.Awaits (some item.length)
      (item ++ (pending ++ future)) rest)
    (fits : ∀ body ∈ rest, format.Fits body.length) :
    ∃ reply later,
      format.complete (some item.length) item pending = some reply ∧
      reply.pending = pending ∧ later <:+ rest ∧
      occupied rest = reply.delivered ++ occupied later ∧
      format.Tracks reply.receiver (reply.pending ++ future) later := by
  obtain ⟨later, rfl, awaits'⟩ := awaits.body
  exact ⟨⟨.start, pending, [item]⟩, later, rfl, rfl,
    List.suffix_cons _ _, occupied_cons filled later, awaits', format.size_pos,
    fun body member => fits body (List.mem_cons_of_mem _ member)⟩

/--
One step of a receiver on a nonempty piece: it stays in step with the
stream, delivers the bodies it completes and consumes some of the piece.
-/
theorem Tracks.accept {receiver : Receiver α} {pending future : List α}
    {rest : List (List α)}
    (tracks : format.Tracks receiver (pending ++ future) rest)
    (filled : pending ≠ []) :
    ∃ reply later, format.accept receiver pending = some reply ∧
      reply.pending.length < pending.length ∧ later <:+ rest ∧
      occupied rest = reply.delivered ++ occupied later ∧
      format.Tracks reply.receiver (reply.pending ++ future) later := by
  obtain ⟨announced, saved⟩ := receiver
  have awaits := tracks.awaits
  have short := tracks.saved_lt
  have positive := List.length_pos_of_ne_nil filled
  simp only at awaits short
  simp only [HeaderFormat.accept]
  generalize absent :
    format.need ⟨announced, saved⟩ - saved.length = missing
  have missing_pos : 0 < missing := by omega
  by_cases enough : missing ≤ pending.length
  · rw [if_pos enough]
    have whole : saved ++ (pending ++ future) =
        (saved ++ pending.take missing) ++
          (pending.drop missing ++ future) := by
      conv_lhs => rw [← List.take_append_drop missing pending]
      simp only [List.append_assoc]
    have size : (saved ++ pending.take missing).length =
        format.need ⟨announced, saved⟩ := by
      rw [List.length_append, List.length_take, Nat.min_eq_left enough]
      omega
    have fewer : (pending.drop missing).length < pending.length := by
      rw [List.length_drop]
      omega
    rw [whole] at awaits
    cases announced with
    | none =>
        obtain ⟨reply, later, done, same, tail, split, kept⟩ :=
          Tracks.complete_header size awaits tracks.fits
        exact ⟨reply, later, done, same ▸ fewer, tail, split, kept⟩
    | some count =>
        have nonempty : saved ++ pending.take missing ≠ [] := by
          apply List.ne_nil_of_length_pos
          rw [size]
          omega
        obtain rfl : (saved ++ pending.take missing).length = count :=
          size
        obtain ⟨reply, later, done, same, tail, split, kept⟩ :=
          Tracks.complete_body nonempty awaits tracks.fits
        exact ⟨reply, later, done, same ▸ fewer, tail, split, kept⟩
  · rw [if_neg enough]
    refine ⟨_, rest, rfl, positive, List.suffix_rfl, rfl, ?_, ?_,
      tracks.fits⟩
    · simpa only [List.nil_append, List.append_assoc] using awaits
    · change (saved ++ pending).length <
        format.need ⟨announced, saved⟩
      rw [List.length_append]
      omega

/-! ## Receivers with a bounded store -/

/-- Part of a body longer than `limit` has been saved. -/
def Overfull (limit : Nat) (receiver : Receiver α) : Prop :=
  receiver.saved ≠ [] ∧ ∃ count ∈ receiver.announced, limit < count

theorem not_overfull_start (limit : Nat) :
    ¬ Overfull limit (Receiver.start : Receiver α) :=
  fun overfull => overfull.1 rfl

variable (format) in
/--
The place where `remaining` elements of the stream are still to come lies
inside a body longer than `limit`.
-/
def Inside (limit : Nat) (bodies : List (List α))
    (remaining : Nat) : Prop :=
  ∃ body after, body :: after <:+ bodies ∧ limit < body.length ∧
    (format.frames after).length < remaining ∧
    remaining < body.length + (format.frames after).length

variable (format) in
/-- No piece of the stream ends inside a body longer than `limit`. -/
def Whole (limit : Nat) (bodies pieces : List (List α)) : Prop :=
  ∀ later, later <:+ pieces →
    ¬ format.Inside limit bodies later.flatten.length

theorem Whole.tail {limit : Nat} {bodies pieces : List (List α)}
    {piece : List α} (whole : format.Whole limit bodies (piece :: pieces)) :
    format.Whole limit bodies pieces :=
  fun later suffix => whole later (suffix.trans (List.suffix_cons _ _))

variable (format) in
theorem whole_nil (limit : Nat) (bodies : List (List α)) :
    format.Whole limit bodies [] := by
  rintro later suffix ⟨body, after, -, -, above, -⟩
  obtain rfl := List.suffix_nil.mp suffix
  simp at above

theorem Whole.cons {limit : Nat} {bodies pieces : List (List α)}
    {piece : List α}
    (outside :
      ¬ format.Inside limit bodies (piece :: pieces).flatten.length)
    (whole : format.Whole limit bodies pieces) :
    format.Whole limit bodies (piece :: pieces) := by
  intro later suffix
  rcases List.suffix_cons_iff.mp suffix with rfl | inner
  · exact outside
  · exact whole later inner

variable (format) in
theorem length_frames_le_of_suffix {later bodies : List (List α)}
    (suffix : later <:+ bodies) :
    (format.frames later).length ≤ (format.frames bodies).length := by
  obtain ⟨before, rfl⟩ := suffix
  simp

/-- What a receiver is ahead of lies within the frames it awaits. -/
theorem Tracks.length_bounds {receiver : Receiver α} {ahead : List α}
    {rest : List (List α)} (tracks : format.Tracks receiver ahead rest) :
    ahead.length ≤ (format.frames rest).length ∧
      ∀ body after, rest = body :: after →
        (format.frames after).length < ahead.length := by
  obtain ⟨announced, saved⟩ := receiver
  have awaits := tracks.awaits
  have short := tracks.saved_lt
  cases announced with
  | none =>
      have size := congrArg List.length awaits
      simp only [need, Option.getD_none, List.length_append] at short size
      refine ⟨by omega, ?_⟩
      rintro body after rfl
      simp only [frames_cons, List.length_append, length_frame] at size
      omega
  | some count =>
      obtain ⟨body, later, rfl, rfl, equal⟩ := awaits
      have size := congrArg List.length equal
      simp only [need, Option.getD_some, List.length_append] at short size
      refine ⟨?_, ?_⟩
      · simp only [frames_cons, List.length_append, length_frame]
        omega
      · intro other after same
        obtain ⟨-, rfl⟩ := List.cons.inj same
        omega

/-- Whether a receiver is overfull is decided by its place in the stream. -/
theorem Tracks.overfull_iff {receiver : Receiver α} {ahead : List α}
    {bodies rest : List (List α)}
    (tracks : format.Tracks receiver ahead rest)
    (suffix : rest <:+ bodies) (limit : Nat) :
    Overfull limit receiver ↔ format.Inside limit bodies ahead.length := by
  constructor
  · rintro ⟨filled, count, announced, long⟩
    have awaits := tracks.awaits
    have short := tracks.saved_lt
    have positive := List.length_pos_of_ne_nil filled
    rw [announced] at awaits
    obtain ⟨body, later, rfl, rfl, equal⟩ := awaits
    have size := congrArg List.length equal
    rw [need, announced, Option.getD_some] at short
    simp only [List.length_append] at size
    exact ⟨body, later, suffix, long, by omega, by omega⟩
  · rintro ⟨body, after, place, long, above, below⟩
    obtain ⟨upper, lower⟩ := tracks.length_bounds
    -- the frames to come start with this very body
    have same : rest = body :: after := by
      rcases List.suffix_or_suffix_of_suffix suffix place with
        before | before
      · rcases List.suffix_cons_iff.mp before with same | inner
        · exact same
        · have := length_frames_le_of_suffix format inner
          omega
      · obtain ⟨middle, rfl⟩ := before
        cases middle with
        | nil => rfl
        | cons first others =>
            have := lower first (others ++ body :: after) rfl
            simp only [frames_append, frames_cons, List.length_append,
              length_frame] at this
            omega
    subst same
    obtain ⟨announced, saved⟩ := receiver
    have awaits := tracks.awaits
    have short := tracks.saved_lt
    cases announced with
    | none =>
        have size := congrArg List.length awaits
        simp only [need, Option.getD_none, frames_cons,
          List.length_append, length_frame] at short size
        omega
    | some count =>
        obtain ⟨other, later, equal, rfl, stream⟩ := awaits
        obtain ⟨rfl, rfl⟩ := List.cons.inj equal
        have size := congrArg List.length stream
        simp only [List.length_append] at size
        refine ⟨?_, _, rfl, long⟩
        rintro rfl
        simp only [List.length_nil] at size
        omega

/-- A receiver that is not overfull keeps no more than its store holds. -/
theorem Tracks.saved_le {receiver : Receiver α} {ahead : List α}
    {rest : List (List α)} {limit : Nat}
    (tracks : format.Tracks receiver ahead rest)
    (small : format.size ≤ limit) (spare : ¬ Overfull limit receiver) :
    receiver.saved.length ≤ limit := by
  obtain ⟨announced, saved⟩ := receiver
  have short := tracks.saved_lt
  cases announced with
  | none =>
      simp only [need, Option.getD_none] at short ⊢
      omega
  | some count =>
      simp only [need, Option.getD_some] at short ⊢
      by_contra large
      refine spare ⟨?_, count, rfl, by omega⟩
      rintro rfl
      simp at large

/-- A receiver that completes an item has nothing saved afterwards. -/
theorem saved_of_complete {announced : Option Nat} {item pending : List α}
    {reply : Reply α}
    (done : format.complete announced item pending = some reply) :
    reply.receiver.saved = [] := by
  simp only [complete] at done
  split at done
  · exact (Option.some.inj done) ▸ rfl
  · split at done
    · exact nomatch done
    · exact (Option.some.inj done) ▸ rfl
    · exact (Option.some.inj done) ▸ rfl

/-- A step on a piece that ends outside long bodies saves no part of one. -/
theorem Tracks.accept_not_overfull {receiver : Receiver α}
    {pending future : List α} {bodies rest : List (List α)} {limit : Nat}
    (tracks : format.Tracks receiver (pending ++ future) rest)
    (suffix : rest <:+ bodies) (filled : pending ≠ [])
    (outside : ¬ format.Inside limit bodies future.length)
    {reply : Reply α} (done : format.accept receiver pending = some reply) :
    ¬ Overfull limit reply.receiver := by
  obtain ⟨reply', later, done', -, tail, -, kept⟩ := tracks.accept filled
  obtain rfl : reply' = reply := Option.some.inj (done'.symm.trans done)
  rw [kept.overfull_iff (tail.trans suffix)]
  simp only [HeaderFormat.accept] at done
  split at done
  · rw [← kept.overfull_iff (tail.trans suffix)]
    exact fun overfull => overfull.1 (saved_of_complete done)
  · obtain rfl := Option.some.inj done
    exact outside

/--
The store is large enough for a step on a piece that ends outside long
bodies: the item is used in place, or what is saved of it fits.
-/
theorem Tracks.room {receiver : Receiver α}
    {pending future : List α} {bodies rest : List (List α)} {limit : Nat}
    (tracks : format.Tracks receiver (pending ++ future) rest)
    (suffix : rest <:+ bodies) (filled : pending ≠ [])
    (small : format.size ≤ limit) (spare : ¬ Overfull limit receiver)
    (outside : ¬ format.Inside limit bodies future.length) :
    receiver.saved = [] ∧ format.need receiver ≤ pending.length ∨
      min (format.need receiver)
        (receiver.saved.length + pending.length) ≤ limit := by
  by_cases fits : format.need receiver ≤ limit
  · exact .inr (by omega)
  obtain ⟨announced, saved⟩ := receiver
  cases announced with
  | none => exact absurd small fits
  | some count =>
      have long : limit < count := by
        simpa [need] using fits
      have empty : saved = [] := by
        by_contra some
        exact spare ⟨some, count, rfl, long⟩
      subst empty
      by_contra tight
      have short : ¬ count ≤ pending.length := fun enough =>
        tight (.inl ⟨rfl, enough⟩)
      have done : format.accept ⟨some count, []⟩ pending =
          some ⟨⟨some count, pending⟩, [], []⟩ := by
        simp [HeaderFormat.accept, need, short]
      exact tracks.accept_not_overfull suffix filled outside done
        ⟨filled, count, rfl, long⟩

end HeaderFormat

end Etch.Library.Framing
