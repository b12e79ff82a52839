import NadSafe.HostText
import NadSafe.ServerTables
import NadSafe.StepRuns
import Mathlib.Data.List.Count
import Mathlib.Data.List.Nodup
import Mathlib.Logic.Function.Basic

/-!
# The hub of connected clients

Every connection has a channel of 100 messages, and the map of the hub lists
the channels of each account. A call that tells accounts about a change copies
this list for one account after the other and waits for room in every channel
on it. Connections open and close, calls proceed and clients read in any order.
An event for which it is not the time changes nothing. Each packet carries the
number of the call that has sent it, which is not part of the message.
-/

namespace NadSafe.UpdateHub

open HostText ServerTables StepRuns

/-- A message in a channel. -/
structure Packet where
  /-- The call that has sent it. -/
  call : ℕ
  /-- Content. -/
  data : Bytes
  deriving DecidableEq

/-- The channel of a connection. -/
structure Channel where
  /-- Account of the connection. -/
  user : Uuid
  /-- What waits to be read. -/
  queue : List Packet
  /-- The receiver is there. -/
  receiving : Bool
  /-- What has been read. -/
  got : List Packet
  deriving DecidableEq

/-- A call of `send_cipher_update` or one like it, which have a list of
accounts. -/
structure Call where
  /-- Content. -/
  data : Bytes
  /-- `user_ids`. -/
  asked : List Uuid
  /-- Those whose channels have not been looked up. -/
  users : List Uuid
  /-- Channels of the last one that are still to be sent to. -/
  entries : List Uuid
  deriving DecidableEq

/-- A call that has returned. -/
def Call.Done (c : Call) : Prop := c.users=[] ∧ c.entries=[]

/-- `WebSocketUsers`, with all channels and calls. -/
structure Hub where
  /-- The channels of each account. -/
  map : Uuid → List Uuid
  /-- Channels. -/
  channels : Uuid → Option Channel
  /-- Calls. -/
  calls : ℕ → Option Call

/-- Before the first connection. -/
def Hub.start : Hub := ⟨fun _ => [],fun _ => none,fun _ => none⟩

/-- What can happen next. -/
inductive Event where
  /-- `websockets_hub` adds a channel. -/
  | connect (entry user : Uuid)
  /-- The guard of a connection is dropped. -/
  | leave (entry : Uuid)
  /-- The receiver of a connection is dropped. -/
  | hangUp (entry : Uuid)
  /-- A call begins. -/
  | call (id : ℕ) (users : List Uuid) (data : Bytes)
  /-- `send_update` copies the list of the next account. -/
  | lookUp (id : ℕ)
  /-- It sends to the next channel. -/
  | send (id : ℕ)
  /-- A connection reads its channel. -/
  | take (entry : Uuid)
  deriving DecidableEq

section Steps

variable (h : Hub)

/-- A channel is replaced. -/
def Hub.setChannel (entry : Uuid) (ch : Channel) : Hub :=
  {h with channels := Function.update h.channels entry (some ch)}

/-- A call is replaced. -/
def Hub.setCall (id : ℕ) (c : Call) : Hub := {h with calls := Function.update h.calls id (some c)}

/-- The beginning of `websockets_hub`; the entry is a new uuid. -/
def Hub.connect (entry user : Uuid) : Hub :=
  match h.channels entry with
  | some _ => h
  | none =>
    {h.setChannel entry ⟨user,[],true,[]⟩ with map := Function.update h.map user (h.map user++[entry])}

/-- `WSEntryMapGuard::drop`. -/
def Hub.leave (entry : Uuid) : Hub :=
  match h.channels entry with
  | some ch => {h with map := Function.update h.map ch.user ((h.map ch.user).filter (· ≠ entry))}
  | none => h

/-- The receiver is dropped. -/
def Hub.hangUp (entry : Uuid) : Hub :=
  match h.channels entry with
  | some ch => h.setChannel entry {ch with receiving := false}
  | none => h

/-- A call begins. -/
def Hub.call (id : ℕ) (users : List Uuid) (data : Bytes) : Hub :=
  match h.calls id with
  | some _ => h
  | none => h.setCall id ⟨data,users,users,[]⟩

/-- `send_update` up to its loop. -/
def Hub.lookUp (id : ℕ) : Hub :=
  match h.calls id with
  | some ⟨data,asked,user::users,[]⟩ => h.setCall id ⟨data,asked,users,h.map user⟩
  | _ => h

/-- One pass of the loop. It waits while the channel is full, and goes on if
the receiver is gone. -/
def Hub.send (id : ℕ) : Hub :=
  match h.calls id with
  | some ⟨data,asked,users,entry::entries⟩ =>
    match h.channels entry with
    | some ch =>
      if ch.receiving=false then h.setCall id ⟨data,asked,users,entries⟩
      else if ch.queue.length<100 then
        (h.setCall id ⟨data,asked,users,entries⟩).setChannel entry {ch with queue := ch.queue++[⟨id,data⟩]}
      else h
    | none => h
  | _ => h

/-- `rx.recv`. -/
def Hub.take (entry : Uuid) : Hub :=
  match h.channels entry with
  | some ⟨user,packet::queue,true,got⟩ => h.setChannel entry ⟨user,queue,true,got++[packet]⟩
  | _ => h

end Steps

/-- One event. -/
def step (h : Hub) : Event → Hub
  | .connect entry user => h.connect entry user
  | .leave entry => h.leave entry
  | .hangUp entry => h.hangUp entry
  | .call id users data => h.call id users data
  | .lookUp id => h.lookUp id
  | .send id => h.send id
  | .take entry => h.take entry

/-- All packets of a channel, in the order in which they were sent. -/
def Channel.packets (ch : Channel) : List Packet := ch.got++ch.queue

/-- How often a call has sent to a channel. -/
def Channel.copies (ch : Channel) (id : ℕ) : ℕ := (ch.packets.map Packet.call).count id

/-- How often a call may still send to a channel of an account. -/
def Call.owes (c : Call) (entry user : Uuid) : ℕ := c.users.count user+c.entries.count entry

end NadSafe.UpdateHub
