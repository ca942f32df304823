import Etch.Java.IdName

/-!
# Writing to a Java `Tcp2Connection`

`writeBuf` hands a buffer to the channel and queues what the channel leaves of
it.  The queue is for `doWrite`, but `doWrite` comes to `write` as the handler
overrides it, which throws; the selector then cancels the handler.
-/

namespace Etch.Java

open Etch.Library.Window

structure ByteBuffer where
  bytes : List UInt8
  position : Nat
  limit : Nat
  position_le : position ≤ limit
  limit_le : limit ≤ bytes.length

namespace ByteBuffer

/-- The bytes between the position and the limit. -/
def remaining (buffer : ByteBuffer) : List UInt8 :=
  window buffer.bytes buffer.position buffer.limit

def hasRemaining (buffer : ByteBuffer) : Bool :=
  buffer.position < buffer.limit

/-- `allocateDirect( n )` -/
def allocateDirect (n : Nat) : ByteBuffer :=
  ⟨List.replicate n 0, 0, n, Nat.zero_le n,
    (List.length_replicate ..).ge⟩

/-- `put( src )` -/
def put (buffer : ByteBuffer) (src : List UInt8)
    (fits : buffer.position + src.length ≤ buffer.limit) : ByteBuffer where
  bytes := overwrite buffer.bytes buffer.position src
  position := buffer.position + src.length
  limit := buffer.limit
  position_le := fits
  limit_le := by
    rw [length_overwrite (fits.trans buffer.limit_le)]
    exact buffer.limit_le

def flip (buffer : ByteBuffer) : ByteBuffer :=
  ⟨buffer.bytes, 0, buffer.position, Nat.zero_le _,
    buffer.position_le.trans buffer.limit_le⟩

/-- What is left when `count` bytes have been taken from the buffer. -/
def advance (buffer : ByteBuffer) (count : Nat) : ByteBuffer :=
  ⟨buffer.bytes, min (buffer.position + count) buffer.limit, buffer.limit,
    Nat.min_le_right .., buffer.limit_le⟩

/-- The buffer that `transportData` makes of the bytes it is given. -/
def ofBytes (bytes : List UInt8) : ByteBuffer :=
  ((allocateDirect bytes.length).put bytes (Nat.zero_add _).le).flip

theorem hasRemaining_iff (buffer : ByteBuffer) :
    buffer.hasRemaining = true ↔ buffer.remaining ≠ [] := by
  unfold hasRemaining
  rw [decide_eq_true_iff, ← List.length_pos_iff, remaining,
    length_window buffer.limit_le, Nat.sub_pos_iff_lt]

/-- What is taken and what is left are what was there. -/
theorem take_append_advance (buffer : ByteBuffer) (count : Nat) :
    buffer.remaining.take count ++ (buffer.advance count).remaining =
      buffer.remaining := by
  rw [remaining, take_window]
  exact window_append_window buffer.bytes
    (Nat.le_min.mpr ⟨Nat.le_add_right .., buffer.position_le⟩)
    (Nat.min_le_right ..)

end ByteBuffer

/-! ## The channel -/

/-- What is thrown.  The selector ignores that a channel is closed, or that
its key is cancelled. -/
inductive ChannelFailure where
  | closed
  | noSuchElementException
  | thrown (thrown : Thrown)

/-- What a channel does when it is asked to write. -/
inductive ChannelAnswer where
  | takes (count : Nat)
  | throws (failure : ChannelFailure)

structure SocketChannel where
  isOpen : Bool
  /-- the bytes that the channel has accepted -/
  accepted : List UInt8

/-- `write( src )`, with what is left of `src`. -/
def SocketChannel.write (channel : SocketChannel) (src : ByteBuffer) :
    ChannelAnswer → Except ChannelFailure (SocketChannel × ByteBuffer)
  | .throws failure => .error failure
  | .takes count =>
      if channel.isOpen then
        .ok ({ channel with
            accepted := channel.accepted ++ src.remaining.take count },
          src.advance count)
      else
        .error .closed

theorem SocketChannel.write_ok {channel next : SocketChannel}
    {src left : ByteBuffer} {answer : ChannelAnswer}
    (writes : channel.write src answer = .ok (next, left)) :
    ∃ count, left = src.advance count ∧ next = { channel with
      accepted := channel.accepted ++ src.remaining.take count } := by
  cases answer with
  | throws failure => exact nomatch writes
  | takes count =>
      unfold SocketChannel.write at writes
      dsimp only at writes
      split at writes
      · obtain ⟨rfl, rfl⟩ := Prod.mk.inj (Except.ok.inj writes)
        exact ⟨count, rfl, rfl⟩
      · exact nomatch writes

/-! ## The handler -/

/-- `Tcp2Connection.MyStreamHandler` -/
structure MyStreamHandler where
  channel : SocketChannel
  /-- neither `selector` nor `key` is null -/
  isRegistered : Bool
  wlist : List ByteBuffer
  /-- what the buffers held that the channel has not refused -/
  queued : List (List UInt8)

namespace MyStreamHandler

def new : MyStreamHandler :=
  ⟨⟨true, []⟩, false, [], []⟩

/-- `updateInterestOps()`, as far as the caller sees it. -/
def updateInterestOps (handler : MyStreamHandler) :
    Except ChannelFailure Unit :=
  if handler.isRegistered then
    .ok ()
  else
    .error (.thrown (.illegalStateException (text "selector == null")))

def writeBuf (handler : MyStreamHandler) (bb : ByteBuffer)
    (answer : ChannelAnswer) : Except ChannelFailure Unit × MyStreamHandler :=
  if bb.hasRemaining then
    match handler.wlist with
    | _ :: _ =>
        (.ok (), { handler with
          wlist := handler.wlist ++ [bb]
          queued := handler.queued ++ [bb.remaining] })
    | [] =>
        match handler.channel.write bb answer with
        | .error failure => (.error failure, handler)
        | .ok (channel, left) =>
            let handler := { handler with
              channel
              queued := handler.queued ++ [bb.remaining] }
            if left.hasRemaining then
              (handler.updateInterestOps, { handler with wlist := [left] })
            else
              (.ok (), handler)
  else
    (.ok (), handler)

/-- `transportData( recipient, buf )`, which has got hold of the handler. -/
def transportData (handler : MyStreamHandler) (bytes : List UInt8)
    (answer : ChannelAnswer) : Except ChannelFailure Unit × MyStreamHandler :=
  if bytes = [] then
    (.ok (), handler)
  else
    handler.writeBuf (.ofBytes bytes) answer

/-- `write( wbuf )`, which overrides that of `StreamHandler`. -/
def write (_ : MyStreamHandler) (_ : ByteBuffer) :
    Except ChannelFailure (MyStreamHandler × ByteBuffer) :=
  .error (.thrown (.ioException (text "don't use this!")))

def doWrite (handler : MyStreamHandler) :
    Except ChannelFailure Unit × MyStreamHandler :=
  match handler.wlist with
  | [] => (.error .noSuchElementException, handler)
  | buf :: wlist =>
      match handler.write buf with
      | .error failure => (.error failure, handler)
      | .ok (handler, buf) =>
          (.ok (), { handler with
            wlist := if buf.hasRemaining then buf :: wlist else wlist })

/-- `canceled( e )`, as far as it concerns the handler. -/
def canceled (handler : MyStreamHandler) : MyStreamHandler :=
  { handler with
    channel := { handler.channel with isOpen := false }
    isRegistered := false }

/-! ## The selector -/

/-- What the channel is ready for, with what comes of what is not modelled. -/
inductive Ready where
  | accept
  | connect (done : Except ChannelFailure Unit)
  | read (done : Except ChannelFailure Unit)
  | write

/-- `selected()` -/
def selected (handler : MyStreamHandler) (ready : Ready) :
    Except ChannelFailure Unit × MyStreamHandler :=
  if handler.isRegistered then
    match ready with
    | .accept =>
        (.error (.thrown (.ioException (text "doAccept not implemented"))),
          handler)
    | .connect done => (done, handler)
    | .read done => (done, handler)
    | .write => handler.doWrite
  else
    (.ok (), handler)

/-- `Selector.handleSelection( key )` -/
def handleSelection (handler : MyStreamHandler) (ready : Ready) :
    MyStreamHandler :=
  match handler.selected ready with
  | (.ok (), handler) => handler
  | (.error .closed, handler) => handler
  | (.error _, handler) => handler.canceled

inductive Event where
  | registered
  | transportData (bytes : List UInt8) (answer : ChannelAnswer)
  | handleSelection (ready : Ready)
  /-- the action of `cancel()`, or of a registration that has failed -/
  | canceled

def step (handler : MyStreamHandler) : Event → MyStreamHandler
  | .registered => { handler with isRegistered := true }
  | .transportData bytes answer => (handler.transportData bytes answer).2
  | .handleSelection ready => handler.handleSelection ready
  | .canceled => handler.canceled

def run (handler : MyStreamHandler) (events : List Event) :
    MyStreamHandler :=
  events.foldl step handler

/-! ## What has been accepted -/

/-- Nothing is lost: what has been queued is what the channel has accepted and
what is still in the queue. -/
def Complete (handler : MyStreamHandler) : Prop :=
  handler.channel.accepted ++ handler.wlist.flatMap ByteBuffer.remaining =
    handler.queued.flatten

theorem doWrite_throws (handler : MyStreamHandler) :
    ∃ failure, failure ≠ ChannelFailure.closed ∧
      handler.doWrite = (.error failure, handler) := by
  unfold doWrite
  cases handler.wlist with
  | nil => exact ⟨.noSuchElementException, nofun, rfl⟩
  | cons buf wlist => exact ⟨.thrown _, nofun, rfl⟩

/-- The selector may cancel the handler, and nothing else. -/
theorem handleSelection_eq (handler : MyStreamHandler) (ready : Ready) :
    handler.handleSelection ready = handler ∨
      handler.handleSelection ready = handler.canceled := by
  have unchanged : ∃ done, handler.selected ready = (done, handler) := by
    unfold selected
    split
    · cases ready with
      | accept => exact ⟨_, rfl⟩
      | connect done => exact ⟨done, rfl⟩
      | read done => exact ⟨done, rfl⟩
      | write =>
          obtain ⟨failure, _, does⟩ := handler.doWrite_throws
          exact ⟨_, does⟩
    · exact ⟨_, rfl⟩
  obtain ⟨done, does⟩ := unchanged
  unfold handleSelection
  rw [does]
  cases done with
  | ok done => exact .inl rfl
  | error failure =>
      cases failure with
      | closed => exact .inl rfl
      | noSuchElementException => exact .inr rfl
      | thrown thrown => exact .inr rfl

theorem Complete.writeBuf {handler : MyStreamHandler}
    (complete : handler.Complete) (bb : ByteBuffer)
    (answer : ChannelAnswer) : (handler.writeBuf bb answer).2.Complete := by
  unfold MyStreamHandler.writeBuf
  split
  case isFalse => exact complete
  case isTrue =>
    unfold Complete at complete
    cases waiting : handler.wlist with
    | cons first rest =>
        rw [waiting] at complete
        simp only [Complete, List.flatMap_append, List.flatten_append,
          ← List.append_assoc, complete]
        simp
    | nil =>
        rw [waiting, List.flatMap_nil, List.append_nil] at complete
        dsimp only
        cases writes : handler.channel.write bb answer with
        | error failure => simpa [Complete, waiting]
        | ok pair =>
            obtain ⟨count, rest, next⟩ := SocketChannel.write_ok writes
            have parts := bb.take_append_advance count
            rw [← rest] at parts
            dsimp only
            split
            · simp [Complete, next, complete, parts]
            · rename_i none
              have empty : pair.2.remaining = [] := by
                by_contra left
                exact none ((ByteBuffer.hasRemaining_iff _).mpr left)
              rw [empty, List.append_nil] at parts
              simp [Complete, next, complete, parts]

theorem Complete.step {handler : MyStreamHandler}
    (complete : handler.Complete) (event : Event) :
    (handler.step event).Complete := by
  cases event with
  | registered => exact complete
  | transportData bytes answer =>
      unfold MyStreamHandler.step transportData
      dsimp only
      split
      · exact complete
      · exact complete.writeBuf _ answer
  | handleSelection ready =>
      obtain same | canceled := handler.handleSelection_eq ready
      · exact (congrArg Complete same).mpr complete
      · exact (congrArg Complete canceled).mpr complete
  | canceled => exact complete

theorem Complete.run {handler : MyStreamHandler}
    (complete : handler.Complete) (events : List Event) :
    (handler.run events).Complete := by
  induction events generalizing handler with
  | nil => exact complete
  | cons event events ih => exact ih (complete.step event)

/-- A channel that is ready to be written is closed instead. -/
theorem handleSelection_write {handler : MyStreamHandler}
    (registered : handler.isRegistered = true) :
    handler.handleSelection .write = handler.canceled := by
  obtain ⟨failure, open', does⟩ := handler.doWrite_throws
  unfold handleSelection selected
  rw [if_pos registered]
  dsimp only
  rw [does]
  cases failure with
  | closed => exact absurd rfl open'
  | noSuchElementException => rfl
  | thrown thrown => rfl

theorem writeBuf_waiting {handler : MyStreamHandler}
    (waiting : handler.wlist ≠ []) (bb : ByteBuffer)
    (answer : ChannelAnswer) :
    (handler.writeBuf bb answer).2.wlist ≠ [] ∧
      (handler.writeBuf bb answer).2.channel = handler.channel := by
  unfold writeBuf
  split
  · cases some : handler.wlist with
    | nil => exact absurd some waiting
    | cons first rest => exact ⟨nofun, rfl⟩
  · exact ⟨waiting, rfl⟩

theorem step_waiting {handler : MyStreamHandler}
    (waiting : handler.wlist ≠ []) (event : Event) :
    (handler.step event).wlist ≠ [] ∧
      (handler.step event).channel.accepted = handler.channel.accepted := by
  cases event with
  | registered => exact ⟨waiting, rfl⟩
  | canceled => exact ⟨waiting, rfl⟩
  | transportData bytes answer =>
      unfold step transportData
      dsimp only
      split
      · exact ⟨waiting, rfl⟩
      · obtain ⟨still, same⟩ := writeBuf_waiting waiting (.ofBytes bytes) answer
        exact ⟨still, congrArg _ same⟩
  | handleSelection ready =>
      unfold step
      dsimp only
      obtain same | canceled := handler.handleSelection_eq ready
      · rw [same]
        exact ⟨waiting, rfl⟩
      · rw [canceled]
        exact ⟨waiting, rfl⟩

/-- Once something is left in the queue the channel is given nothing more,
whatever is sent and whatever the selector finds. -/
theorem accepted_of_waiting (events later : List Event) :
    (new.run events).wlist = [] ∨
      (new.run (events ++ later)).channel.accepted =
        (new.run events).channel.accepted := by
  refine or_iff_not_imp_left.mpr fun waiting => ?_
  unfold run at *
  rw [List.foldl_append]
  generalize events.foldl step new = handler at waiting
  induction later generalizing handler with
  | nil => rfl
  | cons event later ih =>
      obtain ⟨still, same⟩ := step_waiting waiting event
      exact (ih _ still).trans same

end MyStreamHandler

end Etch.Java
