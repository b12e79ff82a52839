import NadSafe.AccessQueries
import NadSafe.CipherHandlers
import NadSafe.CursorPages
import Mathlib.Data.Int.Order.Basic

/-!
# The event log of organisations

Events are saved with a date in nanoseconds, as the server logs them or as a
client says when it hands events in. They are listed from the latest down, 30
at a time; a full page names the date of its last event, which is written to
the microsecond, and the next request ends its range there.
-/

namespace NadSafe.EventLog

open HostText TableRows ServerTables CipherHandlers AccessQueries CursorPages

/-- A row of the `event` table. -/
structure Event where
  /-- Key. -/
  uuid : Uuid
  /-- Type. -/
  eventType : ℤ
  /-- The user it is about. -/
  userUuid : Option Uuid
  /-- The organisation. -/
  orgUuid : Option Uuid
  /-- The item. -/
  cipherUuid : Option Uuid
  /-- The collection. -/
  collectionUuid : Option Uuid
  /-- The group. -/
  groupUuid : Option Uuid
  /-- The membership. -/
  orgUserUuid : Option Uuid
  /-- Who has acted. -/
  actUserUuid : Option Uuid
  /-- Kind of device. -/
  deviceType : Option ℤ
  /-- Address. -/
  ipAddress : Option Text
  /-- Date, in nanoseconds. -/
  eventDate : ℤ
  /-- The policy. -/
  policyUuid : Option Uuid
  /-- Never set. -/
  providerUuid : Option Text
  /-- Never set. -/
  providerUserUuid : Option Text
  /-- Never set. -/
  providerOrgUuid : Option Text
  deriving DecidableEq

/-- Dates as RFC 3339 text. -/
structure DateText where
  /-- `format_date`. -/
  formatDate : ℤ → Text
  /-- `DateTime::parse_from_rfc3339`, in UTC. -/
  parseFromRfc3339 : Text → Option ℤ

/-- A date, to the microsecond. -/
def microsecond (d : ℤ) : ℤ := d/1000*1000

/-- The years from 0 to 9999, which RFC 3339 text can name. -/
def Named (d : ℤ) : Prop := -62167219200*1000000000 ≤ d ∧ d<253402300800*1000000000

/-- Text of a date names it to the microsecond. -/
def DateText.Reads (dates : DateText) : Prop :=
  ∀ d,Named d → dates.parseFromRfc3339 (dates.formatDate d)=some (microsecond d)

/-- `parse_date`. -/
def DateText.parseDate (dates : DateText) (date : Text) : Except String ℤ :=
  (dates.parseFromRfc3339 date).elim (.error Panic) .ok

/-- An event in an answer. -/
structure EventJson where
  /-- `type`. -/
  type : ℤ
  /-- `userId`. -/
  userId : Option Uuid
  /-- `organizationId`. -/
  organizationId : Option Uuid
  /-- `cipherId`. -/
  cipherId : Option Uuid
  /-- `collectionId`. -/
  collectionId : Option Uuid
  /-- `groupId`. -/
  groupId : Option Uuid
  /-- `organizationUserId`. -/
  organizationUserId : Option Uuid
  /-- `actingUserId`. -/
  actingUserId : Option Uuid
  /-- `date`. -/
  date : Text
  /-- `deviceType`. -/
  deviceType : Option ℤ
  /-- `ipAddress`. -/
  ipAddress : Option Text
  /-- `policyId`. -/
  policyId : Option Uuid
  /-- `providerId`. -/
  providerId : Option Text
  /-- `providerUserId`. -/
  providerUserId : Option Text
  /-- `providerOrganizationId`. -/
  providerOrganizationId : Option Text
  deriving DecidableEq

/-- `Event::to_json`. -/
def Event.toJson (dates : DateText) (e : Event) : EventJson where
  type := e.eventType
  userId := e.userUuid
  organizationId := e.orgUuid
  cipherId := e.cipherUuid
  collectionId := e.collectionUuid
  groupId := e.groupUuid
  organizationUserId := e.orgUserUuid
  actingUserId := e.actUserUuid
  date := dates.formatDate e.eventDate
  deviceType := e.deviceType
  ipAddress := e.ipAddress
  policyId := e.policyUuid
  providerId := e.providerUuid
  providerUserId := e.providerUserUuid
  providerOrganizationId := e.providerOrgUuid

/-- `Event::PAGE_SIZE`. -/
def PAGE_SIZE : ℕ := 30

/-- Rows from the latest down. Rows of one date come in the order in which
they were read. -/
def latest (rows : List Event) : List Event := rows.mergeSort fun x y => decide (y.eventDate ≤ x.eventDate)

/-- `Event::find_by_organization_uuid`. -/
def Event.findByOrganizationUuid (rows : List Event) (org : Uuid) (start finish : ℤ) : List Event :=
  (latest (rows.filter fun e => e.orgUuid=some org ∧ start ≤ e.eventDate ∧ e.eventDate ≤ finish)).take PAGE_SIZE

/-- `Event::find_by_org_and_member`. -/
def Event.findByOrgAndMember (t : Tables) (rows : List Event) (org member : Uuid) (start finish : ℤ) :
    List Event :=
  let joined := innerJoin rows t.members fun _ m => m.uuid=member
  (latest ((joined.filter fun (e,m) => e.orgUuid=some org ∧ start ≤ e.eventDate ∧ e.eventDate ≤ finish ∧
    (e.userUuid=some m.userUuid ∨ e.actUserUuid=some m.userUuid)).map Prod.fst)).take PAGE_SIZE

/-- `Event::find_by_cipher_uuid`. -/
def Event.findByCipherUuid (rows : List Event) (cipher : Uuid) (start finish : ℤ) : List Event :=
  (latest (rows.filter fun e => e.cipherUuid=some cipher ∧ start ≤ e.eventDate ∧ e.eventDate ≤ finish)).take PAGE_SIZE

/-- `Membership::user_has_ge_admin_access_to_cipher`; the status is not asked. -/
def Membership.userHasGeAdminAccessToCipher (t : Tables) (user cipher : Uuid) : Bool :=
  (innerJoin t.members t.ciphers fun m c => c.uuid=cipher ∧ c.organizationUuid=some m.orgUuid).any
    fun (m,_) => m.userUuid=user ∧ (m.atype=.owner ∨ m.atype=.admin)

/-- `EventRange`. -/
structure EventRange where
  /-- First date. -/
  start : Text
  /-- Last date. -/
  finish : Text
  /-- Where an earlier page has ended. -/
  continuationToken : Option Text

/-- The dates that a request asks for. -/
def EventRange.dates (dates : DateText) (data : EventRange) : Except String (ℤ×ℤ) := do
  let startDate ← dates.parseDate data.start
  let endDate ← dates.parseDate (data.continuationToken.getD data.finish)
  return (startDate,endDate)

/-- `get_continuation_token`. -/
def getContinuationToken (eventsJson : List EventJson) : Option Text :=
  if eventsJson.length=PAGE_SIZE then eventsJson.getLast?.map EventJson.date else none

/-- An answer. -/
structure EventPage where
  /-- `data`. -/
  data : List EventJson
  /-- `continuationToken`. -/
  continuationToken : Option Text
  deriving DecidableEq

/-- The answer with some events. -/
def EventPage.of (eventsJson : List EventJson) : EventPage := ⟨eventsJson,getContinuationToken eventsJson⟩

/-- Settings of the log. -/
structure EventSettings extends DateText where
  /-- `org_events_enabled`. -/
  orgEventsEnabled : Bool
  /-- `events_days_retain`. -/
  eventsDaysRetain : Option ℤ

section Requests

variable (s : EventSettings) (t : Tables) (rows : List Event)

/-- `get_org_events`. -/
def getOrgEvents (org headersOrg : Uuid) (data : EventRange) : Except String EventPage :=
  if org≠headersOrg then .error "Organization not found"
  else if s.orgEventsEnabled=true then do
    let (startDate,endDate) ← data.dates s.toDateText
    return .of ((Event.findByOrganizationUuid rows org startDate endDate).map (Event.toJson s.toDateText))
  else .ok (.of [])

/-- `get_cipher_events`. -/
def getCipherEvents (cipher user : Uuid) (data : EventRange) : Except String EventPage :=
  if s.orgEventsEnabled=true ∧ Membership.userHasGeAdminAccessToCipher t user cipher=true then do
    let (startDate,endDate) ← data.dates s.toDateText
    return .of ((Event.findByCipherUuid rows cipher startDate endDate).map (Event.toJson s.toDateText))
  else .ok (.of [])

/-- `get_user_events`. -/
def getUserEvents (org member headersOrg : Uuid) (data : EventRange) : Except String EventPage :=
  if org≠headersOrg then .error "Organization not found"
  else if s.orgEventsEnabled=true then do
    let (startDate,endDate) ← data.dates s.toDateText
    return .of ((Event.findByOrgAndMember t rows org member startDate endDate).map
      (Event.toJson s.toDateText))
  else .ok (.of [])

end Requests

/-- The table and the next uuid. -/
structure EventTable where
  /-- Rows. -/
  rows : List Event
  /-- Next uuid. -/
  next : Uuid
  /-- No row has it, nor a later one. -/
  fresh : ∀ e∈rows,e.uuid<next
  /-- Key. -/
  nodup : (rows.map Event.uuid).Nodup

/-- A new event is saved under the next uuid. No row is replaced by it, and it
is not ignored. -/
def EventTable.add (T : EventTable) (event : Event) : EventTable where
  rows := T.rows++[{event with uuid := T.next}]
  next := T.next+1
  fresh e he := by
    rcases List.mem_append.mp he with he|he
    · exact (T.fresh e he).trans (Nat.lt_succ_self _)
    · rw [List.mem_singleton.mp he]
      exact Nat.lt_succ_self _
  nodup := by
    rw [List.map_append,List.nodup_append]
    refine ⟨T.nodup,List.nodup_singleton _,?_⟩
    intro u hu v hv
    obtain ⟨e,he,rfl⟩ := List.mem_map.mp hu
    rw [List.map_singleton,List.mem_singleton] at hv
    rw [hv]
    exact (T.fresh e he).ne

/-- Only some rows are kept. -/
def EventTable.keep (T : EventTable) (p : Event → Bool) : EventTable where
  rows := T.rows.filter p
  next := T.next
  fresh e he := T.fresh e (List.mem_of_mem_filter he)
  nodup := T.nodup.sublist ((List.filter_sublist ..).map _)

/-- `Event::new`, before its uuid is drawn. -/
def Event.new (eventType : ℤ) (eventDate : Option ℤ) (now : ℤ) : Event where
  uuid := 0
  eventType := eventType
  userUuid := none
  orgUuid := none
  cipherUuid := none
  collectionUuid := none
  groupUuid := none
  orgUserUuid := none
  actUserUuid := none
  deviceType := none
  ipAddress := none
  eventDate := eventDate.getD now
  policyUuid := none
  providerUuid := none
  providerUserUuid := none
  providerOrgUuid := none

/-- Who hands events in. -/
structure Caller where
  /-- Account. -/
  user : Uuid
  /-- Kind of device. -/
  atype : ℤ
  /-- Address. -/
  ip : Text

section Logging

variable (t : Tables) (caller : Caller) (T : EventTable)

/-- An event of `log_user_event_impl`. -/
def userEvent (eventType : ℤ) (eventDate : Option ℤ) (now : ℤ) (membership : Option Membership) : Event :=
  {Event.new eventType eventDate now with
    userUuid := some caller.user
    orgUuid := membership.map Membership.orgUuid
    orgUserUuid := membership.map Membership.uuid
    actUserUuid := some caller.user
    deviceType := some caller.atype
    ipAddress := some caller.ip}

/-- `log_user_event_impl`: one event without an organisation, and one for each
organisation of the user. -/
def logUserEventImpl (eventType : ℤ) (eventDate : Option ℤ) (clock : ℕ → ℤ) : EventTable :=
  let memberships := (Membership.findConfirmedByUser t caller.user).map some
  let events := (none::memberships).mapIdx fun i m => userEvent caller eventType eventDate (clock i) m
  events.foldl EventTable.add T

/-- What an event is about. -/
def Event.about (e : Event) (source : Uuid) : Event :=
  if 1100 ≤ e.eventType ∧ e.eventType ≤ 1199 then {e with cipherUuid := some source}
  else if 1300 ≤ e.eventType ∧ e.eventType ≤ 1399 then {e with collectionUuid := some source}
  else if 1400 ≤ e.eventType ∧ e.eventType ≤ 1499 then {e with groupUuid := some source}
  else if 1500 ≤ e.eventType ∧ e.eventType ≤ 1599 then {e with orgUserUuid := some source}
  else if 1700 ≤ e.eventType ∧ e.eventType ≤ 1799 then {e with policyUuid := some source}
  else e

/-- `log_event_impl`. -/
def logEventImpl (eventType : ℤ) (source org : Uuid) (eventDate : Option ℤ) (now : ℤ) : EventTable :=
  T.add {(Event.new eventType eventDate now).about source with
    orgUuid := some org
    actUserUuid := some caller.user
    deviceType := some caller.atype
    ipAddress := some caller.ip}

/-- An event of a client. -/
structure EventCollection where
  /-- `type`. -/
  type : ℤ
  /-- `date`. -/
  date : Text
  /-- `cipher_id`. -/
  cipherId : Option Uuid
  /-- `organization_id`. -/
  organizationId : Option Uuid

/-- The organisation that the item of an event belongs to. -/
def EventCollection.organizationOf (event : EventCollection) : Option (Uuid×Uuid) := do
  let cipherUuid ← event.cipherId
  let cipher ← t.ciphers.find? fun c => c.uuid=cipherUuid
  let org ← cipher.organizationUuid
  return (cipherUuid,org)

/-- One event of `post_events_collect`. -/
def collected (event : EventCollection) (eventDate : ℤ) : EventTable :=
  if 1000 ≤ event.type ∧ event.type ≤ 1099 then
    logUserEventImpl t caller T event.type (some eventDate) fun _ => eventDate
  else if 1600 ≤ event.type ∧ event.type ≤ 1699 then
    match event.organizationId with
    | some org => logEventImpl caller T event.type org org (some eventDate) eventDate
    | none => T
  else
    match event.organizationOf t with
    | some (cipher,org) => logEventImpl caller T event.type cipher org (some eventDate) eventDate
    | none => T

/-- The loop of `post_events_collect`, which ends with a panic at the first
date that is none. -/
def collect (dates : DateText) : List EventCollection → EventTable → EventTable×Except String Unit
  | [],T => (T,.ok ())
  | event::rest,T =>
    match dates.parseDate event.date with
    | .error e => (T,.error e)
    | .ok eventDate => collect dates rest (collected t caller T event eventDate)

/-- `post_events_collect`. -/
def postEventsCollect (s : EventSettings) (data : List EventCollection) : EventTable×Except String Unit :=
  if s.orgEventsEnabled=true then collect t caller s.toDateText data T else (T,.ok ())

/-- `log_user_event`. -/
def logUserEvent (s : EventSettings) (eventType : ℤ) (clock : ℕ → ℤ) : EventTable :=
  if s.orgEventsEnabled=true then logUserEventImpl t caller T eventType none clock else T

/-- `log_event`. -/
def logEvent (s : EventSettings) (eventType : ℤ) (source org : Uuid) (now : ℤ) : EventTable :=
  if s.orgEventsEnabled=true then logEventImpl caller T eventType source org none now else T

/-- `Event::clean_events`. -/
def Event.cleanEvents (s : EventSettings) (now : ℤ) : EventTable :=
  match s.eventsDaysRetain with
  | some days => T.keep fun e => !decide (e.eventDate<now-days*86400*1000000000)
  | none => T

end Logging

/-- What changes the table. -/
inductive LogOp where
  /-- `log_user_event`. -/
  | logUser (caller : Caller) (eventType : ℤ) (clock : ℕ → ℤ)
  /-- `log_event`. -/
  | log (caller : Caller) (eventType : ℤ) (source org : Uuid) (now : ℤ)
  /-- `post_events_collect`. -/
  | collect (caller : Caller) (data : List EventCollection)
  /-- `event_cleanup_job`. -/
  | clean (now : ℤ)

/-- One change of the table. -/
def LogOp.run (s : EventSettings) (t : Tables) (T : EventTable) : LogOp → EventTable
  | .logUser caller eventType clock => logUserEvent t caller T s eventType clock
  | .log caller eventType source org now => logEvent caller T s eventType source org now
  | .collect caller data => (postEventsCollect t caller T s data).1
  | .clean now => Event.cleanEvents T s now

/-- No cleanup reaches a date. -/
def Keeps (s : EventSettings) (d : ℤ) (op : LogOp) : Prop :=
  ∀ now days,op=.clean now → s.eventsDaysRetain=some days → now-days*86400*1000000000 ≤ d

/-- An event that a client hands in about an organisation, with a date. -/
def About (s : EventSettings) (org : Uuid) (d : ℤ) (c : EventCollection) : Bool :=
  decide (1600 ≤ c.type ∧ c.type ≤ 1699 ∧ c.organizationId=some org ∧ s.parseFromRfc3339 c.date=some d)

/-- Whose events are listed, and what a guard has found about the caller. -/
inductive EventQuery where
  /-- Of an organisation, for an administrator of one. -/
  | ofOrg (org headersOrg : Uuid)
  /-- Of an item, for a user. -/
  | ofCipher (cipher user : Uuid)
  /-- Of a member, for an administrator. -/
  | ofUser (org member headersOrg : Uuid)

/-- One request. -/
def EventQuery.answer (s : EventSettings) (t : Tables) (rows : List Event) (data : EventRange) :
    EventQuery → Except String EventPage
  | .ofOrg org headersOrg => getOrgEvents s rows org headersOrg data
  | .ofCipher cipher user => getCipherEvents s t rows cipher user data
  | .ofUser org member headersOrg => getUserEvents s t rows org member headersOrg data

/-- Whether an event belongs to a listing. -/
def EventQuery.selects (t : Tables) (e : Event) : EventQuery → Bool
  | .ofOrg org _ => decide (e.orgUuid=some org)
  | .ofCipher cipher _ => decide (e.cipherUuid=some cipher)
  | .ofUser org member _ => decide (e.orgUuid=some org) && t.members.any fun m =>
      decide (m.uuid=member ∧ (e.userUuid=some m.userUuid ∨ e.actUserUuid=some m.userUuid))

/-- Whether the caller may see the listing. -/
def EventQuery.granted (t : Tables) : EventQuery → Bool
  | .ofOrg org headersOrg => decide (org=headersOrg)
  | .ofCipher cipher user => Membership.userHasGeAdminAccessToCipher t user cipher
  | .ofUser org _ headersOrg => decide (org=headersOrg)

/-- The events of a listing from a date on. -/
def EventQuery.events (q : EventQuery) (t : Tables) (start : ℤ) (rows : List Event) : List Event :=
  rows.filter fun e => q.selects t e && decide (start ≤ e.eventDate)

/-- What a request reads before it takes a page. -/
def EventQuery.found (q : EventQuery) (t : Tables) (start : ℤ) (rows : List Event) (finish : ℤ) : List Event :=
  latest ((q.events t start rows).filter fun e => decide (e.eventDate ≤ finish))

/-- The answers to at most `fuel` requests, each of which takes the token of
the one before, and whether the last one has no token. -/
def listing (answer : ℕ → Option Text → Except String EventPage) :
    ℕ → ℕ → Option Text → List (List EventJson)×Bool
  | 0,_,_ => ([],false)
  | fuel+1,i,continuation =>
    match answer i continuation with
    | .error _ => ([],false)
    | .ok page =>
      match page.continuationToken with
      | none => ([page.data],true)
      | some next => (page.data::(listing answer fuel (i+1) (some next)).1,(listing answer fuel (i+1) (some next)).2)

end NadSafe.EventLog
