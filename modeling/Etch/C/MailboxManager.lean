import Etch.C.Hashtable
import Etch.Library.Transition

/-!
# The mailboxes of the C `etch_plainmailboxmgr`

A hash table leads from message ids to mailboxes.  It is given the hash of an
id only: two ids with one hash are one id to it.
-/

namespace Etch.C

open Etch.Library.Transition

/-- `etchhash(&id, sizeof(int64), 0)`: the last eight bytes of a key are all
there is, and the third word is their number. -/
def etchhash (id : Int64) : UInt32 :=
  let low := id.toUInt64.toUInt32
  let high := (id.toUInt64 >>> 32).toUInt32
  (mix (0x9e3779b9 + low) (0x9e3779b9 + high) 8).2.2

/-! ## The table -/

/-- An item with its key; mailboxes are numbered as they are made. -/
structure HashItem where
  hash : UInt32
  key : Int64
  value : Nat
deriving DecidableEq

/-- `inserth(..)`: all keys are of one class, so that only their hashes are
compared. -/
def inserth (map : List HashItem) (key : Int64) (value : Nat) :
    Option (List HashItem) :=
  if etchhash key = 0 then
    none
  else if map.any fun item => item.hash == etchhash key then
    none
  else
    some (⟨etchhash key, key, value⟩ :: map)

def findh (map : List HashItem) (hashed : UInt32) : Option HashItem :=
  if hashed = 0 then none
  else map.find? fun item => item.hash == hashed

def removeh (map : List HashItem) (hashed : UInt32) :
    Option (List HashItem) :=
  if (findh map hashed).isSome then
    some (map.eraseP fun item => item.hash == hashed)
  else
    none

/-! ## The manager -/

structure MailboxManager where
  is_connection_up : Bool
  mailboxes : List HashItem
  /-- the message ids of the mailboxes that have been made -/
  made : List Int64
deriving DecidableEq

namespace MailboxManager

/-- `pmboxmgr_register_mailbox(mgr, ibox)` -/
def register_mailbox (manager : MailboxManager) (message_id : Int64)
    (mailbox : Nat) : Option MailboxManager :=
  if manager.is_connection_up then
    (inserth manager.mailboxes message_id mailbox).map fun mailboxes =>
      { manager with mailboxes }
  else
    none

/-- `pmboxmgr_unregister(imgr, ibox)` of a mailbox with that id, which leaves
the manager as it was if there is nothing under its hash. -/
def unregister (manager : MailboxManager) (message_id : Int64) :
    MailboxManager :=
  match removeh manager.mailboxes (etchhash message_id) with
  | some mailboxes => { manager with mailboxes }
  | none => manager

/-- `pmboxmgr_get_mailbox(mgr, msgid)` -/
def get_mailbox (manager : MailboxManager) (msgid : Int64) : Option Nat :=
  (findh manager.mailboxes (etchhash msgid)).map HashItem.value

/-- `pmboxmgr_transport_call(..)` of a message that is given an id, and that
the transport takes or not. -/
def transport_call (manager : MailboxManager) (msgid : Int64)
    (transmitted : Bool) : Option Nat × MailboxManager :=
  if msgid = 0 then
    (none, manager)
  else
    let mailbox := manager.made.length
    let manager := { manager with made := manager.made ++ [msgid] }
    match manager.register_mailbox msgid mailbox with
    | none => (none, manager.unregister msgid)
    | some manager =>
        if transmitted then (some mailbox, manager)
        else (none, manager.unregister msgid)

end MailboxManager

/-! ## Runs -/

inductive RoutingEvent where
  /-- a message has been put into a mailbox -/
  | put (mailbox : Nat) (in_reply_to : Int64)
  /-- a call has failed, with the registered mailboxes before and after it -/
  | failed (before after : List HashItem)
deriving DecidableEq

/-- A manager, the mailboxes that have been registered and not unregistered
themselves, and what has happened. -/
structure RoutingSystem where
  manager : MailboxManager
  registered : List Nat
  events : List RoutingEvent
deriving DecidableEq

inductive RoutingAction where
  /-- the session goes up or down; what is unregistered when it goes down are
  steps of their own -/
  | connection (up : Bool)
  | transport_call (msgid : Int64) (transmitted : Bool)
  | unregister (mailbox : Nat)
  /-- a message that its mailbox takes, being open and not full, or not -/
  | session_message (in_reply_to : Int64) (taken : Bool)

namespace RoutingSystem

def step (system : RoutingSystem) : RoutingAction → Option RoutingSystem
  | .connection up =>
      some { system with
        manager := { system.manager with is_connection_up := up } }
  | .transport_call msgid transmitted =>
      match system.manager.transport_call msgid transmitted with
      | (some mailbox, manager) =>
          some { system with
            manager
            registered := mailbox :: system.registered }
      | (none, manager) =>
          some { system with
            manager
            events := .failed system.manager.mailboxes manager.mailboxes ::
              system.events }
  | .unregister mailbox => do
      let message_id ← system.manager.made[mailbox]?
      return { system with
        manager := system.manager.unregister message_id
        registered := system.registered.filter (· ≠ mailbox) }
  | .session_message in_reply_to taken =>
      match system.manager.get_mailbox in_reply_to with
      | none => some system
      | some mailbox =>
          if taken then
            some { system with
              events := .put mailbox in_reply_to :: system.events }
          else
            some system

/-- A manager without mailboxes. -/
def start (is_connection_up : Bool) : RoutingSystem :=
  ⟨⟨is_connection_up, [], []⟩, [], []⟩

/-- Replies get where they belong. -/
structure Exact (system : RoutingSystem) : Prop where
  put : ∀ mailbox in_reply_to, .put mailbox in_reply_to ∈ system.events →
    system.manager.made[mailbox]? = some in_reply_to
  found : ∀ mailbox ∈ system.registered,
    ∃ message_id, system.manager.made[mailbox]? = some message_id ∧
      system.manager.get_mailbox message_id = some mailbox
  failed : ∀ before after, .failed before after ∈ system.events →
    before = after

/-- The hash of an id that is used is not that of another mailbox. -/
def Sound (system : RoutingSystem) : RoutingAction → Prop
  | .connection _ => True
  | .transport_call msgid _ =>
      msgid ≠ 0 →
        ∀ item ∈ system.manager.mailboxes, item.hash ≠ etchhash msgid
  | .unregister mailbox =>
      ∀ message_id, system.manager.made[mailbox]? = some message_id →
        ∀ item ∈ system.manager.mailboxes,
          item.hash = etchhash message_id → item.value = mailbox
  | .session_message in_reply_to taken =>
      taken = true → ∀ item ∈ system.manager.mailboxes,
        item.hash = etchhash in_reply_to → item.key = in_reply_to

end RoutingSystem

/-! ## What the table finds and removes -/

theorem getElem?_of_prefix {T : Type} {before after : List T}
    (grows : before <+: after) {index : Nat} {x : T}
    (here : before[index]? = some x) : after[index]? = some x := by
  obtain ⟨bound, rfl⟩ := List.getElem?_eq_some_iff.mp here
  exact List.prefix_iff_getElem?.mp grows index bound

theorem mem_of_findh {map : List HashItem} {hashed : UInt32}
    {item : HashItem} (found : findh map hashed = some item) :
    item ∈ map ∧ item.hash = hashed := by
  unfold findh at found
  split at found
  · contradiction
  · have test := List.find?_some found
    exact ⟨List.mem_of_find?_eq_some found, beq_iff_eq.mp test⟩

/-- An item is what is found under its hash, if no other item has it. -/
theorem findh_of_mem {map : List HashItem}
    (distinct : (map.map HashItem.hash).Nodup) {item : HashItem}
    (here : item ∈ map) (nonzero : item.hash ≠ 0) :
    findh map item.hash = some item := by
  rw [findh, if_neg nonzero]
  cases found : map.find? fun other => other.hash == item.hash with
  | none =>
      have absent := List.find?_eq_none.mp found item here
      exact absurd BEq.rfl absent
  | some other =>
      have test : other.hash = item.hash := by
        simpa using List.find?_some found
      have there := List.mem_of_find?_eq_some found
      rw [List.inj_on_of_nodup_map distinct there here test]

theorem findh_eq_none {map : List HashItem} {hashed : UInt32}
    (absent : ∀ item ∈ map, item.hash ≠ hashed) :
    findh map hashed = none := by
  cases found : findh map hashed with
  | none => rfl
  | some item =>
      obtain ⟨here, same⟩ := mem_of_findh found
      exact absurd same (absent item here)

theorem removeh_eq_some {map next : List HashItem} {hashed : UInt32}
    (removes : removeh map hashed = some next) :
    next = map.eraseP fun item => item.hash == hashed := by
  unfold removeh at removes
  split at removes
  · exact (Option.some.inj removes).symm
  · contradiction

theorem inserth_eq_some {map next : List HashItem} {key : Int64}
    {value : Nat} (inserts : inserth map key value = some next) :
    etchhash key ≠ 0 ∧ (∀ item ∈ map, item.hash ≠ etchhash key) ∧
      next = ⟨etchhash key, key, value⟩ :: map := by
  unfold inserth at inserts
  split at inserts
  · contradiction
  next nonzero =>
    split at inserts
    · contradiction
    next fresh =>
      have fresh : ∀ item ∈ map, item.hash ≠ etchhash key := by
        simpa using fresh
      exact ⟨nonzero, fresh, (Option.some.inj inserts).symm⟩

namespace MailboxManager

/-- There is nothing to unregister under a hash that no item has. -/
theorem unregister_of_absent {manager : MailboxManager} {message_id : Int64}
    (absent : ∀ item ∈ manager.mailboxes,
      item.hash ≠ etchhash message_id) :
    manager.unregister message_id = manager := by
  simp [unregister, removeh, findh_eq_none absent]

theorem unregister_cases (manager : MailboxManager) (message_id : Int64) :
    manager.unregister message_id = manager ∨
      manager.unregister message_id = { manager with
        mailboxes := manager.mailboxes.eraseP fun item =>
          item.hash == etchhash message_id } := by
  unfold unregister
  split
  next mailboxes removes =>
    rw [removeh_eq_some removes]
    exact .inr rfl
  next => exact .inl rfl

@[simp]
theorem made_unregister (manager : MailboxManager) (message_id : Int64) :
    (manager.unregister message_id).made = manager.made := by
  rcases unregister_cases manager message_id with same | erased
  · rw [same]
  · rw [erased]

/-- What is unregistered has the hash that is given. -/
theorem mem_mailboxes_unregister {manager : MailboxManager}
    {message_id : Int64} {item : HashItem}
    (here : item ∈ manager.mailboxes)
    (other : item.hash ≠ etchhash message_id) :
    item ∈ (manager.unregister message_id).mailboxes := by
  rcases unregister_cases manager message_id with same | erased
  · rwa [same]
  · rw [erased]
    exact (List.mem_eraseP_of_neg (by simpa using other)).mpr here

theorem mailboxes_unregister_sublist (manager : MailboxManager)
    (message_id : Int64) :
    (manager.unregister message_id).mailboxes.Sublist
      manager.mailboxes := by
  rcases unregister_cases manager message_id with same | erased
  · rw [same]
  · rw [erased]
    exact List.eraseP_sublist

theorem register_mailbox_eq_some {manager next : MailboxManager}
    {message_id : Int64} {mailbox : Nat}
    (registers : manager.register_mailbox message_id mailbox = some next) :
    etchhash message_id ≠ 0 ∧
      (∀ item ∈ manager.mailboxes, item.hash ≠ etchhash message_id) ∧
      next = { manager with
        mailboxes := ⟨etchhash message_id, message_id, mailbox⟩ ::
          manager.mailboxes } := by
  unfold register_mailbox at registers
  split at registers
  · obtain ⟨mailboxes, inserts, rfl⟩ := Option.map_eq_some_iff.mp registers
    obtain ⟨nonzero, fresh, rfl⟩ := inserth_eq_some inserts
    exact ⟨nonzero, fresh, rfl⟩
  · contradiction

/-- What has just been registered is what is unregistered. -/
theorem unregister_register {manager next : MailboxManager}
    {message_id : Int64} {mailbox : Nat}
    (registers : manager.register_mailbox message_id mailbox = some next) :
    next.unregister message_id = manager := by
  obtain ⟨nonzero, _, rfl⟩ := register_mailbox_eq_some registers
  simp [unregister, removeh, findh, nonzero]

/-- A call that succeeds adds its mailbox to the others. -/
theorem transport_call_some {manager next : MailboxManager}
    {msgid : Int64} {transmitted : Bool} {mailbox : Nat}
    (calls : manager.transport_call msgid transmitted =
      (some mailbox, next)) :
    etchhash msgid ≠ 0 ∧
      (∀ item ∈ manager.mailboxes, item.hash ≠ etchhash msgid) ∧
      mailbox = manager.made.length ∧
      next.made = manager.made ++ [msgid] ∧
      next.mailboxes =
        ⟨etchhash msgid, msgid, mailbox⟩ :: manager.mailboxes := by
  simp only [transport_call] at calls
  split at calls
  · cases calls
  · split at calls
    · cases calls
    next registered registers =>
      split at calls
      · cases calls
        obtain ⟨nonzero, fresh, rfl⟩ := register_mailbox_eq_some registers
        exact ⟨nonzero, fresh, rfl, rfl, rfl⟩
      · cases calls

/-- A call that fails leaves the mailboxes alone, if none has the hash of its
id. -/
theorem transport_call_none {manager next : MailboxManager}
    {msgid : Int64} {transmitted : Bool}
    (fresh : msgid ≠ 0 →
      ∀ item ∈ manager.mailboxes, item.hash ≠ etchhash msgid)
    (calls : manager.transport_call msgid transmitted = (none, next)) :
    next.mailboxes = manager.mailboxes ∧ manager.made <+: next.made := by
  simp only [transport_call] at calls
  split at calls
  · cases calls
    exact ⟨rfl, List.prefix_rfl⟩
  next nonzero =>
    split at calls
    · cases calls
      refine ⟨?_, by simp⟩
      apply (congrArg mailboxes (unregister_of_absent ?_)).trans rfl
      exact fresh nonzero
    next registered registers =>
      split at calls
      · cases calls
      · cases calls
        rw [unregister_register registers]
        exact ⟨rfl, List.prefix_append _ _⟩

end MailboxManager

/-! ## What every sound step keeps -/

/-- A table whose items are mailboxes that have been made, with the hashes of
their ids, which differ. -/
structure Tabled (manager : MailboxManager) : Prop where
  hash : ∀ item ∈ manager.mailboxes,
    item.hash = etchhash item.key ∧ item.hash ≠ 0
  made : ∀ item ∈ manager.mailboxes,
    manager.made[item.value]? = some item.key
  distinct : (manager.mailboxes.map HashItem.hash).Nodup

namespace Tabled

theorem get_mailbox {manager : MailboxManager} (tabled : Tabled manager)
    {item : HashItem} (here : item ∈ manager.mailboxes) :
    manager.get_mailbox item.key = some item.value := by
  obtain ⟨hash, nonzero⟩ := tabled.hash item here
  rw [MailboxManager.get_mailbox, ← hash,
    findh_of_mem tabled.distinct here nonzero]
  rfl

/-- Fewer mailboxes of as many that have been made. -/
theorem mono {manager next : MailboxManager} (tabled : Tabled manager)
    (fewer : next.mailboxes.Sublist manager.mailboxes)
    (made : manager.made <+: next.made) : Tabled next where
  hash item here := tabled.hash item (fewer.subset here)
  made item here := by
    have before := tabled.made item (fewer.subset here)
    exact getElem?_of_prefix made before
  distinct := tabled.distinct.sublist (fewer.map _)

theorem cons {manager next : MailboxManager} (tabled : Tabled manager)
    {msgid : Int64} (nonzero : etchhash msgid ≠ 0)
    (fresh : ∀ item ∈ manager.mailboxes, item.hash ≠ etchhash msgid)
    (made : next.made = manager.made ++ [msgid])
    (mailboxes : next.mailboxes =
      ⟨etchhash msgid, msgid, manager.made.length⟩ :: manager.mailboxes) :
    Tabled next where
  hash item here := by
    rw [mailboxes] at here
    rcases List.mem_cons.mp here with rfl | here
    · exact ⟨rfl, nonzero⟩
    · exact tabled.hash item here
  made item here := by
    rw [made]
    rw [mailboxes] at here
    rcases List.mem_cons.mp here with rfl | here
    · simp
    · exact getElem?_of_prefix (List.prefix_append _ _)
        (tabled.made item here)
  distinct := by
    rw [mailboxes, List.map_cons, List.nodup_cons]
    refine ⟨?_, tabled.distinct⟩
    intro there
    obtain ⟨item, here, same⟩ := List.mem_map.mp there
    exact fresh item here same

end Tabled

namespace RoutingSystem

/-- Every mailbox that is registered is in the table. -/
structure Routed (system : RoutingSystem) : Prop where
  tabled : Tabled system.manager
  listed : ∀ mailbox ∈ system.registered,
    ∃ item ∈ system.manager.mailboxes, item.value = mailbox
  put : ∀ mailbox in_reply_to, .put mailbox in_reply_to ∈ system.events →
    system.manager.made[mailbox]? = some in_reply_to
  failed : ∀ before after, .failed before after ∈ system.events →
    before = after

theorem Routed.exact {system : RoutingSystem} (routed : Routed system) :
    Exact system where
  put := routed.put
  found mailbox registered := by
    obtain ⟨item, here, rfl⟩ := routed.listed mailbox registered
    exact ⟨item.key, routed.tabled.made item here,
      routed.tabled.get_mailbox here⟩
  failed := routed.failed

theorem routed_start (is_connection_up : Bool) :
    Routed (start is_connection_up) where
  tabled := ⟨by nofun, by nofun, List.nodup_nil⟩
  listed := by nofun
  put := by nofun
  failed := by nofun

theorem Routed.connection {system : RoutingSystem} (routed : Routed system)
    (up : Bool) :
    Routed { system with
      manager := { system.manager with is_connection_up := up } } where
  tabled := routed.tabled.mono (List.Sublist.refl _) List.prefix_rfl
  listed := routed.listed
  put := routed.put
  failed := routed.failed

theorem Routed.transport_call {system next : RoutingSystem}
    (routed : Routed system) {msgid : Int64} {transmitted : Bool}
    (sound : Sound system (.transport_call msgid transmitted))
    (takes : step system (.transport_call msgid transmitted) = some next) :
    Routed next := by
  simp only [step] at takes
  split at takes
  next mailbox manager calls =>
    obtain rfl := Option.some.inj takes
    obtain ⟨nonzero, fresh, rfl, made, mailboxes⟩ :=
      MailboxManager.transport_call_some calls
    refine ⟨routed.tabled.cons nonzero fresh made mailboxes, ?_, ?_,
      routed.failed⟩
    · intro mailbox registered
      rw [mailboxes]
      rcases List.mem_cons.mp registered with rfl | registered
      · exact ⟨_, List.mem_cons_self, rfl⟩
      · obtain ⟨item, here, same⟩ := routed.listed mailbox registered
        exact ⟨item, List.mem_cons_of_mem _ here, same⟩
    · intro mailbox in_reply_to happened
      rw [made]
      exact getElem?_of_prefix (List.prefix_append _ _)
        (routed.put mailbox in_reply_to happened)
  next manager calls =>
    obtain rfl := Option.some.inj takes
    obtain ⟨mailboxes, made⟩ :=
      MailboxManager.transport_call_none sound calls
    refine ⟨routed.tabled.mono (mailboxes ▸ List.Sublist.refl _) made,
      ?_, ?_, ?_⟩
    · rw [mailboxes]
      exact routed.listed
    · intro mailbox in_reply_to happened
      have happened : .put mailbox in_reply_to ∈ system.events := by
        simpa using happened
      exact getElem?_of_prefix made
        (routed.put mailbox in_reply_to happened)
    · intro before after happened
      rcases List.mem_cons.mp happened with this | happened
      · cases this
        exact mailboxes.symm
      · exact routed.failed before after happened

theorem Routed.unregister {system next : RoutingSystem}
    (routed : Routed system) {mailbox : Nat}
    (sound : Sound system (.unregister mailbox))
    (takes : step system (.unregister mailbox) = some next) :
    Routed next := by
  obtain ⟨message_id, made, takes⟩ := Option.bind_eq_some_iff.mp takes
  obtain rfl := Option.some.inj takes
  refine ⟨routed.tabled.mono
    (MailboxManager.mailboxes_unregister_sublist _ _) (by simp), ?_, ?_,
    routed.failed⟩
  · intro other registered
    obtain ⟨registered, differs⟩ := List.mem_filter.mp registered
    obtain ⟨item, here, same⟩ := routed.listed other registered
    refine ⟨item, MailboxManager.mem_mailboxes_unregister here ?_, same⟩
    intro hash
    have own := sound message_id made item here hash
    exact of_decide_eq_true differs (same.symm.trans own)
  · simpa using routed.put

theorem Routed.session_message {system next : RoutingSystem}
    (routed : Routed system) {in_reply_to : Int64} {taken : Bool}
    (sound : Sound system (.session_message in_reply_to taken))
    (takes : step system (.session_message in_reply_to taken) =
      some next) :
    Routed next := by
  simp only [step] at takes
  split at takes
  · obtain rfl := Option.some.inj takes
    exact routed
  next mailbox found =>
    split at takes
    next accepted =>
      obtain rfl := Option.some.inj takes
      refine ⟨routed.tabled, routed.listed, ?_, ?_⟩
      · intro other id happened
        rcases List.mem_cons.mp happened with this | happened
        · cases this
          obtain ⟨item, finds, rfl⟩ := Option.map_eq_some_iff.mp found
          obtain ⟨here, hash⟩ := mem_of_findh finds
          rw [← sound accepted item here hash]
          exact routed.tabled.made item here
        · exact routed.put other id happened
      · intro before after happened
        have happened : .failed before after ∈ system.events := by
          simpa using happened
        exact routed.failed before after happened
    · obtain rfl := Option.some.inj takes
      exact routed

theorem routed_of_step (system : RoutingSystem) (action : RoutingAction)
    (next : RoutingSystem) (routed : Routed system)
    (sound : Sound system action) (takes : step system action = some next) :
    Routed next := by
  cases action with
  | connection up =>
      obtain rfl := Option.some.inj takes
      exact routed.connection up
  | transport_call msgid transmitted =>
      exact routed.transport_call sound takes
  | unregister mailbox => exact routed.unregister sound takes
  | session_message in_reply_to taken =>
      exact routed.session_message sound takes

/-- Replies get where they belong, as long as no id is used that has the hash
of another one's mailbox. -/
theorem routing_exact {is_connection_up : Bool} {system : RoutingSystem}
    (runs : Relation.ReflTransGen (StepBy step Sound)
      (start is_connection_up) system) :
    Exact system :=
  (invariant_of_steps Routed routed_of_step runs
    (routed_start is_connection_up)).exact

/-- A mailbox whose id has the hash of 15515 as well. -/
def called : RoutingSystem where
  manager :=
    { is_connection_up := true
      mailboxes := [⟨1003314864, 5735, 0⟩]
      made := [5735] }
  registered := [0]
  events := []

theorem step_called :
    step (start true) (.transport_call 5735 true) = some called := by
  decide +kernel

/-- A reply gets to the mailbox of its id. -/
theorem routing_exact_reply :
    Exact { called with events := [.put 0 5735] } := by
  have first : StepBy step Sound (start true) called :=
    ⟨.transport_call 5735 true, fun _ => by nofun, step_called⟩
  have second : StepBy step Sound called
      { called with events := [.put 0 5735] } := by
    refine ⟨.session_message 5735 true, ?_, by decide +kernel⟩
    intro _ item here _
    rw [List.mem_singleton.mp here]
  exact routing_exact (.tail (.single first) second)

/-- A call with an id of one hash with another one fails and takes the other
one's mailbox with it. -/
def lost : RoutingSystem where
  manager := { called.manager with mailboxes := [], made := [5735, 15515] }
  registered := [0]
  events := [.failed [⟨1003314864, 5735, 0⟩] []]

theorem routing_astray :
    Relation.ReflTransGen (Step step) (start true) lost ∧ ¬ Exact lost ∧
    Relation.ReflTransGen (Step step) (start true)
      { called with events := [.put 0 15515] } ∧
    ¬ Exact { called with events := [.put 0 15515] } := by
  have first : Step step (start true) called :=
    ⟨.transport_call 5735 true, trivial, step_called⟩
  have fails : Step step called lost :=
    ⟨.transport_call 15515 true, trivial, by decide +kernel⟩
  have replies : Step step called
      { called with events := [.put 0 15515] } :=
    ⟨.session_message 15515 true, trivial, by decide +kernel⟩
  refine ⟨.tail (.single first) fails, ?_,
    .tail (.single first) replies, ?_⟩
  · intro exact
    exact nomatch exact.failed _ _ List.mem_cons_self
  · intro exact
    have other := exact.put _ _ List.mem_cons_self
    exact absurd other (by decide)

end RoutingSystem

end Etch.C
