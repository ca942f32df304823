import Etch.Java.ValueFactory

/-!
# The Java `PwAuth` filter

A client sends its name and password when the session comes up, and a server
asks its session about them.  What the filter is told and asked about is
recorded, newest first; what the session and the transport do is left open.
-/

namespace Etch.Java

open Etch.Library.Stateful
open ValueFactory (mf_messageId mf_inReplyTo unchecked)

/-- The answer to a `UserPassword`. -/
structure OkStatus where
  ok : Bool
  status : Option JavaString
deriving DecidableEq

/-- What a filter is notified of, or notifies its session of. -/
inductive SessionEvent where
  | UP
  | DOWN
  | userPassword (user password : Option JavaString)
  | okStatus (status : OkStatus)
  | other (event : JavaString)
deriving DecidableEq

namespace PwAuth

variable {S : Type}

/-- What has happened to a filter: requests and notifications. -/
inductive Mark where
  | approved (user password : Option JavaString)
  | refused
  /-- the request has failed with an exception -/
  | failed
  /-- the name or the password is not a string -/
  | malformed
  | up
  | down
deriving DecidableEq

end PwAuth

/-- The filter, and the state of what it works with. -/
structure PwAuth (S : Type) where
  user : Option JavaString
  password : Option JavaString
  server : Bool
  trace : List PwAuth.Mark
  rest : S

namespace PwAuth

/-- The session, the transport and the value factory. -/
structure Neighbours (S : Type) where
  vf : ValueFactory S
  /-- `(OkStatus) sessionQuery( new UserPassword( user, password ) )` -/
  authenticate (user password : Option JavaString) :
    EStateM Thrown S (Option OkStatus)
  /-- `(String) session.sessionQuery( USER )` -/
  queryUser : EStateM Thrown S (Option JavaString)
  /-- `(String) session.sessionQuery( PASSWORD )` -/
  queryPassword : EStateM Thrown S (Option JavaString)
  sessionNotify (event : SessionEvent) : EStateM Thrown S Unit
  sessionMessage (msg : StructValue) : EStateM Thrown S Bool
  transportMessage (msg : StructValue) : EStateM Thrown S Unit
  /-- `e.toString()` -/
  toString (thrown : Thrown) : JavaString

abbrev Filter (S α : Type) : Type :=
  EStateM Thrown (PwAuth S) α

variable {S : Type}

/-! ## Types and fields -/

def mt_request : IdName :=
  .ofName (text "_Etch_PwAuthReq")

def mt_response : IdName :=
  .ofName (text "_Etch_PwAuthResp")

def mf_user : Field :=
  .ofName (text "user")

def mf_password : Field :=
  .ofName (text "password")

def mf_ok : Field :=
  .ofName (text "ok")

def mf_status : Field :=
  .ofName (text "status")

/-! ## Requests and responses -/

/-- A call of the session, the transport or the value factory. -/
def call {α : Type} (m : EStateM Thrown S α) : Filter S α :=
  fun filter =>
    match m filter.rest with
    | .ok value rest => .ok value { filter with rest }
    | .error thrown rest => .error thrown { filter with rest }

def throwing {α : Type} : Except Thrown α → Filter S α
  | .ok value => return value
  | .error thrown => throw thrown

def mark (mark : Mark) : Filter S Unit :=
  fun filter => .ok () { filter with trace := mark :: filter.trace }

def isServer : Filter S Bool :=
  fun filter => .ok filter.server filter

/-- `(String) value` -/
def string : Value → Except Thrown (Option JavaString)
  | .null => .ok none
  | .string value => .ok (some value)
  | _ => .error .classCastException

/-- `(Long) value` -/
def long : Value → Except Thrown Value
  | .null => .ok .null
  | .long value => .ok (.long value)
  | _ => .error .classCastException

/-- `(String) msg.get( key )` of a request -/
def getString (msg : StructValue) (key : Field) :
    Filter S (Option JavaString) :=
  match string (msg.get key) with
  | .ok value => return value
  | .error thrown => do
      mark .malformed
      throw thrown

section Methods

variable (beside : Neighbours S)

/-- `sessionNotifyUser( user, password )` -/
def sessionNotifyUser (user password : Option JavaString) :
    Filter S Unit := do
  modify fun filter => { filter with user, password }
  call (beside.sessionNotify (.userPassword user password))

/-- `sendPwAuthResp( recipient, msg, result, status )` -/
def sendPwAuthResp (msg : StructValue) (result : Bool)
    (status : Option JavaString) : Filter S Unit := do
  let messageId ← throwing (long (msg.get mf_messageId))
  let rmsg ← call ((⟨mt_response, []⟩ : StructValue).put beside.vf
    mf_inReplyTo messageId)
  let rmsg ← call (rmsg.put beside.vf mf_ok (.boolean result))
  let rmsg ← call (rmsg.put beside.vf mf_status
    (match status with
    | some status => .string status
    | none => .null))
  call (beside.transportMessage rmsg)

/-- What the session answers, and what is recorded of it. -/
def authenticate (user password : Option JavaString) :
    Filter S OkStatus := do
  let status ← call (beside.authenticate user password)
  match status with
  | none => throw .nullPointerException
  | some status => do
      mark (if status.ok then .approved user password else .refused)
      return status

/-- The `try` block of `handlePwAuthReq`. -/
def tryRequest (msg : StructValue) (user password : Option JavaString) :
    Filter S Unit := do
  let status ← authenticate beside user password
  if status.ok then
    sessionNotifyUser beside user password
  else
    sessionNotifyUser beside none none
  sendPwAuthResp beside msg status.ok status.status

/-- The `catch` block of `handlePwAuthReq`. -/
def catchRequest (msg : StructValue) (thrown : Thrown) : Filter S Unit :=
  if thrown.isException then do
    mark .failed
    sessionNotifyUser beside none none
    sendPwAuthResp beside msg false (some (beside.toString thrown))
    throw thrown
  else
    throw thrown

def handlePwAuthReq (msg : StructValue) : Filter S Unit := do
  -- a client that got a request takes no notice of it
  if ← isServer then
    let user ← getString msg mf_user
    let password ← getString msg mf_password
    catching (tryRequest beside msg user password)
      (catchRequest beside msg)

/-- `(Boolean) msg.get( mf_ok )` -/
def getOk (msg : StructValue) : Except Thrown Bool :=
  match msg.get mf_ok with
  | .boolean ok => .ok ok
  | .null => .error .nullPointerException
  | _ => .error .classCastException

def handlePwAuthResp (msg : StructValue) : Filter S Unit := do
  if ← isServer then
    -- a server that got a response takes no notice of it
    return ()
  else
    let result ← throwing (getOk msg)
    let status ← throwing (string (msg.get mf_status))
    call (beside.sessionNotify (.okStatus ⟨result, status⟩))

/-- A name or password, which the session is asked for if there is none. -/
def orQuery (query : EStateM Thrown S (Option JavaString))
    (missing : JavaString) : Option JavaString → Filter S JavaString
  | some value => return value
  | none => do
      match ← call query with
      | some value => return value
      | none => throw (.illegalStateException missing)

def sendPwAuthReq : Filter S Unit := do
  let user ← orQuery beside.queryUser (text "PwAuth: user == null")
    (← get).user
  modify fun filter => { filter with user := some user }
  let password ← orQuery beside.queryPassword
    (text "PwAuth: password == null") (← get).password
  modify fun filter => { filter with password := some password }
  let msg ← call ((⟨mt_request, []⟩ : StructValue).put beside.vf mf_user
    (.string user))
  let msg ← call (msg.put beside.vf mf_password (.string password))
  call (beside.transportMessage msg)

/-! ## What the filter is called for -/

def sessionMessage (msg : StructValue) : Filter S Bool :=
  if msg.type = mt_request then do
    handlePwAuthReq beside msg
    return true
  else if msg.type = mt_response then do
    handlePwAuthResp beside msg
    return true
  else
    call (beside.sessionMessage msg)

def sessionUp : Filter S Unit := do
  mark .up
  if ← isServer then
    return ()
  else
    sendPwAuthReq beside

def sessionDown : Filter S Unit := do
  mark .down
  if ← isServer then
    sessionNotifyUser beside none none

/-- `sessionNotify( event )` -/
def sessionNotify (event : SessionEvent) : Filter S Unit := do
  if event = .UP then
    sessionUp beside
  if event = .DOWN then
    sessionDown beside
  call (beside.sessionNotify event)

/-- `checkNotServer()`, and what follows on it. -/
def notServer (control : Filter S Unit) : Filter S Unit := do
  if ← isServer then
    throw (.illegalStateException (text "control not permitted by server"))
  else
    control

/-- The controls that the filter knows. -/
inductive Control where
  | USER (value : Option JavaString)
  | PASSWORD (value : Option JavaString)
  | AUTHENTICATE

def transportControl : Control → Filter S Unit
  | .USER value => notServer (modify fun filter =>
      { filter with user := value })
  | .PASSWORD value => notServer (modify fun filter =>
      { filter with password := value })
  | .AUTHENTICATE => notServer (sendPwAuthReq beside)

/-- `transportQuery( USER )` -/
def queryUser (filter : PwAuth S) : Option JavaString :=
  filter.user

/-- `transportQuery( PASSWORD )` -/
def queryPassword (filter : PwAuth S) : Option JavaString :=
  filter.password

/-- What comes from outside. -/
inductive Input where
  | sessionMessage (msg : StructValue)
  | sessionNotify (event : SessionEvent)
  | transportControl (control : Control)

/-- The filter afterwards, whether the call throws or not. -/
def handle (filter : PwAuth S) : Input → PwAuth S
  | .sessionMessage msg => final (sessionMessage beside msg filter)
  | .sessionNotify event => final (sessionNotify beside event filter)
  | .transportControl control =>
      final (transportControl beside control filter)

/-- The filter after a sequence of calls. -/
def run (filter : PwAuth S) (inputs : List Input) : PwAuth S :=
  inputs.foldl (handle beside) filter

/-- `new PwAuth( transport, uri, resources )` on a server. -/
def startServer (rest : S) : PwAuth S :=
  ⟨none, none, true, [], rest⟩

end Methods

/-! ## The identity that a server reports -/

namespace Mark

def isNotification : Mark → Bool
  | up => true
  | down => true
  | _ => false

def isDown : Mark → Bool
  | down => true
  | _ => false

/-- A request that the session has been asked about. -/
def isRequest : Mark → Bool
  | approved _ _ => true
  | refused => true
  | failed => true
  | _ => false

end Mark

/-- The last of the marks that count since the last that resets. -/
def last (resets counts : Mark → Bool) (trace : List Mark) : Option Mark :=
  (trace.takeWhile fun mark => !resets mark).find? counts

/-- The last request, with a name and a password, since the last `DOWN`. -/
def lastRequest (trace : List Mark) : Option Mark :=
  last Mark.isDown Mark.isRequest trace

/-- The user is the one that was approved last, if there is one. -/
def Current (filter : PwAuth S) : Prop :=
  filter.user ≠ none →
    lastRequest filter.trace = some (.approved filter.user filter.password)

/-- A server whose user is the one that was approved last. -/
def Serves (filter : PwAuth S) : Prop :=
  filter.server = true ∧ Current filter

@[simp]
theorem lastRequest_down (trace : List Mark) :
    lastRequest (.down :: trace) = none := rfl

@[simp]
theorem lastRequest_up (trace : List Mark) :
    lastRequest (.up :: trace) = lastRequest trace := rfl

@[simp]
theorem lastRequest_malformed (trace : List Mark) :
    lastRequest (.malformed :: trace) = lastRequest trace := rfl

@[simp]
theorem lastRequest_approved (trace : List Mark)
    (user password : Option JavaString) :
    lastRequest (.approved user password :: trace) =
      some (.approved user password) := rfl

section Keeping

variable {beside : Neighbours S}

theorem keeps_call {α : Type} (m : EStateM Thrown S α) :
    Keeps (Serves (S := S)) (call m) := by
  intro filter serves
  unfold call
  cases m filter.rest with
  | ok value rest => exact serves
  | error thrown rest => exact serves

theorem keeps_throwing {α : Type} (result : Except Thrown α) :
    Keeps (Serves (S := S)) (throwing result) := by
  cases result with
  | ok value => exact .pure value
  | error thrown => exact .throw thrown

/-- A mark that does not change what the last request is. -/
theorem keeps_mark {mark : Mark}
    (same : ∀ trace, lastRequest (mark :: trace) = lastRequest trace) :
    Keeps (Serves (S := S)) (PwAuth.mark mark) := by
  rintro filter ⟨server, current⟩
  refine ⟨server, fun some => ?_⟩
  exact (same filter.trace).trans (current some)

/-- No user is always right. -/
theorem keeps_notifyNobody :
    Triple (fun filter : PwAuth S => filter.server = true)
      (sessionNotifyUser beside none none) (fun _ => Serves) Serves := by
  intro filter server
  exact keeps_call (beside.sessionNotify (.userPassword none none))
    { filter with user := none, password := none } ⟨server, absurd rfl⟩

/-- A user may be set who has been approved last. -/
theorem keeps_notifyUser (user password : Option JavaString) :
    Triple (fun filter : PwAuth S => filter.server = true ∧
        lastRequest filter.trace = some (.approved user password))
      (sessionNotifyUser beside user password) (fun _ => Serves) Serves := by
  rintro filter ⟨server, approved⟩
  exact keeps_call (beside.sessionNotify (.userPassword user password))
    { filter with user, password } ⟨server, fun _ => approved⟩

theorem keeps_sendPwAuthResp (msg : StructValue) (result : Bool)
    (status : Option JavaString) :
    Keeps Serves (sendPwAuthResp beside msg result status) :=
  .bind (keeps_throwing _) fun _ => .bind (keeps_call _) fun _ =>
    .bind (keeps_call _) fun _ => .bind (keeps_call _) fun _ => keeps_call _

theorem keeps_authenticate (user password : Option JavaString) :
    Triple Serves (authenticate beside user password)
      (fun status (filter : PwAuth S) => filter.server = true ∧
        (status.ok = true →
          lastRequest filter.trace = some (.approved user password)))
      Serves := by
  refine .bind (keeps_call _) fun status => ?_
  cases status with
  | none => exact .throw _ fun _ serves => serves
  | some status =>
      rintro filter ⟨server, current⟩
      exact ⟨server, fun ok => by simp [ok]⟩

theorem keeps_tryRequest (msg : StructValue)
    (user password : Option JavaString) :
    Keeps Serves (tryRequest beside msg user password) := by
  refine Triple.bind (keeps_authenticate user password) fun status => ?_
  have answers : Keeps Serves
      (sendPwAuthResp beside msg status.ok status.status) :=
    keeps_sendPwAuthResp msg status.ok status.status
  by_cases ok : status.ok = true
  · rw [if_pos ok]
    refine Triple.bind ((keeps_notifyUser user password).consequence ?_
      (fun _ _ serves => serves) (fun _ serves => serves)) fun _ => answers
    exact fun _ ⟨server, approved⟩ => ⟨server, approved ok⟩
  · rw [if_neg ok]
    refine Triple.bind (keeps_notifyNobody.consequence ?_
      (fun _ _ serves => serves) (fun _ serves => serves)) fun _ => answers
    exact fun _ ⟨server, _⟩ => server

theorem keeps_catchRequest (msg : StructValue) (thrown : Thrown) :
    Keeps Serves (catchRequest beside msg thrown) := by
  unfold catchRequest
  split
  · have marked : Triple (ε := Thrown) Serves (mark (S := S) .failed)
        (fun _ filter => filter.server = true) Serves :=
      fun _ serves => serves.1
    refine Triple.bind marked fun _ => Triple.bind keeps_notifyNobody
      fun _ => ?_
    exact Keeps.bind (keeps_sendPwAuthResp msg false _)
      fun _ => .throw thrown
  · exact .throw thrown

theorem keeps_getString (msg : StructValue) (key : Field) :
    Keeps (Serves (S := S)) (getString msg key) := by
  unfold getString
  cases string (msg.get key) with
  | ok value => exact .pure value
  | error thrown =>
      exact .bind (keeps_mark lastRequest_malformed) fun _ => .throw thrown

theorem keeps_isServer :
    Triple (Serves (S := S)) isServer
      (fun server filter => server = true ∧ Serves filter) Serves :=
  fun _ serves => ⟨serves.1, serves⟩

theorem keeps_handlePwAuthReq (msg : StructValue) :
    Keeps Serves (handlePwAuthReq beside msg) := by
  refine Triple.bind keeps_isServer fun server => ?_
  rintro filter ⟨rfl, serves⟩
  refine Keeps.bind (keeps_getString msg mf_user) (fun user => ?_) filter
    serves
  refine .bind (keeps_getString msg mf_password) fun password => ?_
  exact .catching (keeps_tryRequest msg user password)
    (keeps_catchRequest msg)

theorem keeps_handlePwAuthResp (msg : StructValue) :
    Keeps Serves (handlePwAuthResp beside msg) := by
  refine Triple.bind keeps_isServer fun server => ?_
  rintro filter ⟨rfl, serves⟩
  exact serves

theorem keeps_sessionMessage (msg : StructValue) :
    Keeps Serves (sessionMessage beside msg) :=
  .ite (.bind (keeps_handlePwAuthReq msg) fun _ => .pure _)
    (.ite (.bind (keeps_handlePwAuthResp msg) fun _ => .pure _)
      (keeps_call _))

theorem keeps_sessionUp : Keeps Serves (sessionUp beside) := by
  refine .bind (keeps_mark lastRequest_up) fun _ => ?_
  refine Triple.bind keeps_isServer fun server => ?_
  rintro filter ⟨rfl, serves⟩
  exact serves

theorem keeps_sessionDown : Keeps Serves (sessionDown beside) := by
  have marked : Triple (ε := Thrown) Serves (mark (S := S) .down)
      (fun _ filter => filter.server = true) Serves :=
    fun _ serves => serves.1
  refine Triple.bind marked fun _ => ?_
  intro filter server
  have asks : isServer filter = .ok true filter := by
    rw [isServer, server]
  rw [bind_ok asks]
  exact keeps_notifyNobody filter server

theorem keeps_sessionNotify (event : SessionEvent) :
    Keeps Serves (sessionNotify beside event) := by
  have passes : Keeps Serves (do
      if event = .DOWN then
        sessionDown beside
      call (beside.sessionNotify event)) :=
    .ite (.bind keeps_sessionDown fun _ => keeps_call _) (keeps_call _)
  exact .ite (.bind keeps_sessionUp fun _ => passes) passes

/-- A server refuses every control. -/
theorem keeps_notServer (control : Filter S Unit) :
    Keeps (Serves (S := S)) (notServer control) := by
  refine Triple.bind keeps_isServer fun server => ?_
  rintro filter ⟨rfl, serves⟩
  exact serves

theorem serves_handle (filter : PwAuth S) (input : Input)
    (serves : Serves filter) : Serves (handle beside filter input) := by
  cases input with
  | sessionMessage msg => exact (keeps_sessionMessage msg).final serves
  | sessionNotify event => exact (keeps_sessionNotify event).final serves
  | transportControl control =>
      cases control with
      | USER value => exact (keeps_notServer _).final serves
      | PASSWORD value => exact (keeps_notServer _).final serves
      | AUTHENTICATE => exact (keeps_notServer _).final serves

theorem serves_run (filter : PwAuth S) (inputs : List Input)
    (serves : Serves filter) : Serves (run beside filter inputs) := by
  induction inputs generalizing filter with
  | nil => exact serves
  | cons input inputs ih => exact ih _ (serves_handle filter input serves)

end Keeping

/-- A user that a server reports was approved by the last request since the
last `DOWN`, under this name and with this password. -/
theorem queryUser_approved (beside : Neighbours S) (rest : S)
    (inputs : List Input)
    (reported : queryUser (run beside (startServer rest) inputs) ≠ none) :
    lastRequest (run beside (startServer rest) inputs).trace =
      some (.approved (queryUser (run beside (startServer rest) inputs))
        (queryPassword (run beside (startServer rest) inputs))) := by
  have starts : Serves (startServer rest) := ⟨rfl, absurd rfl⟩
  exact (serves_run (startServer rest) inputs starts).2 reported

/-! ## A session that approves everybody -/

def approving : Neighbours Unit where
  vf := unchecked
  authenticate := fun _ _ => return some ⟨true, none⟩
  queryUser := return none
  queryPassword := return none
  sessionNotify := fun _ => return ()
  sessionMessage := fun _ => return true
  transportMessage := fun _ => return ()
  toString := fun _ => []

/-- A request with a name and a password. -/
def request (user password : Value) : Input :=
  .sessionMessage ⟨mt_request, [(mf_user, user), (mf_password, password)]⟩

theorem approved_reported :
    lastRequest (run approving (startServer ())
      [request (.string (text "u")) (.string (text "p"))]).trace =
      some (.approved (some (text "u")) (some (text "p"))) := by
  have reported := queryUser_approved approving ()
    [request (.string (text "u")) (.string (text "p"))]
    (by decide +kernel)
  have identity : (queryUser (run approving (startServer ())
      [request (.string (text "u")) (.string (text "p"))]),
      queryPassword (run approving (startServer ())
        [request (.string (text "u")) (.string (text "p"))])) =
      (some (text "u"), some (text "p")) := by
    decide +kernel
  obtain ⟨user, password⟩ := Prod.mk.inj identity
  rw [user, password] at reported
  exact reported

/-- The user stays when the session comes up, and when a request is made that
is not well formed. -/
theorem stale_identity :
    (queryUser (run approving (startServer ())
        [request (.string (text "u")) (.string (text "p")),
          .sessionNotify .UP]) ≠ none ∧
      last Mark.isNotification (!Mark.isNotification ·)
        (run approving (startServer ())
          [request (.string (text "u")) (.string (text "p")),
            .sessionNotify .UP]).trace = none) ∧
    queryUser (run approving (startServer ())
        [request (.string (text "u")) (.string (text "p")),
          request (.int 1) (.string (text "p"))]) ≠ none ∧
      last Mark.isNotification (!Mark.isNotification ·)
        (run approving (startServer ())
          [request (.string (text "u")) (.string (text "p")),
            request (.int 1) (.string (text "p"))]).trace =
        some .malformed := by
  decide +kernel

end PwAuth

end Etch.Java
