import NadSafe.LengthFrames
import NadSafe.MsgPack
import NadSafe.Utf8
import NadSafe.WebCrypto
import Mathlib.Data.Nat.Bitwise

/-!
# What connected clients are told

The messages that the server sends to connected clients: an invocation in
MessagePack with its length in front. A client that takes the stream apart
again, wherever it has been cut, gets the complete messages with their ids,
and their dates as long as these are from 1970 to 2514.
-/

namespace NadSafe.UpdateFrames

open HostText LengthFrames MsgPack
open WebCrypto (utf8)

/-- The loop of `serialize` that writes the length. -/
def lengthBytes (size : ℕ) : List UInt8 :=
  let sizePart := size &&& 0x7f
  if _h : 0<size >>> 7 then UInt8.ofNat (sizePart ||| 0x80)::lengthBytes (size >>> 7) else [UInt8.ofNat sizePart]
termination_by size
decreasing_by
  rw [Nat.shiftRight_eq_div_pow] at _h ⊢
  omega

/-- `serialize`. -/
def serialize (val : Value) : List UInt8 := lengthBytes val.write.length++val.write

/-- `serialize_date`, of a date in nanoseconds. -/
def serializeDate (date : ℤ) : Value :=
  let seconds := BitVec.ofInt 64 (date/1000000000)
  let nanos := BitVec.ofInt 64 (date%1000000000)
  let timestamp := nanos <<< 34 ||| seconds
  .ext (-1) (be 8 timestamp.toNat)

/-- Text as a value. -/
def textValue (text : Text) : Value := .str (utf8 text)

/-- `convert_option`. -/
def convertOption (option : Option Text) : Value := option.elim .nil textValue

/-- `UpdateType`. -/
inductive UpdateType where
  /-- `SyncCipherUpdate`. -/
  | syncCipherUpdate
  /-- `SyncCipherCreate`. -/
  | syncCipherCreate
  /-- `SyncLoginDelete`. -/
  | syncLoginDelete
  /-- `SyncFolderDelete`. -/
  | syncFolderDelete
  /-- `SyncCiphers`. -/
  | syncCiphers
  /-- `SyncVault`. -/
  | syncVault
  /-- `SyncOrgKeys`. -/
  | syncOrgKeys
  /-- `SyncFolderCreate`. -/
  | syncFolderCreate
  /-- `SyncFolderUpdate`. -/
  | syncFolderUpdate
  /-- `SyncSettings`. -/
  | syncSettings
  /-- `LogOut`. -/
  | logOut
  /-- `SyncSendCreate`. -/
  | syncSendCreate
  /-- `SyncSendUpdate`. -/
  | syncSendUpdate
  /-- `SyncSendDelete`. -/
  | syncSendDelete
  /-- `AuthRequest`. -/
  | authRequest
  /-- `AuthRequestResponse`. -/
  | authRequestResponse
  /-- `None`. -/
  | none
  deriving DecidableEq

/-- The number of a type. -/
def UpdateType.code : UpdateType → ℤ
  | .syncCipherUpdate => 0
  | .syncCipherCreate => 1
  | .syncLoginDelete => 2
  | .syncFolderDelete => 3
  | .syncCiphers => 4
  | .syncVault => 5
  | .syncOrgKeys => 6
  | .syncFolderCreate => 7
  | .syncFolderUpdate => 8
  | .syncSettings => 10
  | .logOut => 11
  | .syncSendCreate => 12
  | .syncSendUpdate => 13
  | .syncSendDelete => 14
  | .authRequest => 15
  | .authRequestResponse => 16
  | .none => 100

/-- `create_update`, before it is serialized. -/
def updateValue (payload : List (Value×Value)) (ut : UpdateType) (actingDeviceId : Option Text) : Value :=
  .array [.int 1,.map [],.nil,textValue "ReceiveMessage".toList,
    .array [.map [(textValue "ContextId".toList,convertOption actingDeviceId),
      (textValue "Type".toList,.int ut.code),
      (textValue "Payload".toList,.map payload)]]]

/-- `create_anonymous_update`, before it is serialized. -/
def anonymousValue (payload : List (Value×Value)) (ut : UpdateType) (userId : Text) : Value :=
  .array [.int 1,.map [],.nil,textValue "AuthRequestResponseRecieved".toList,
    .array [.map [(textValue "Type".toList,.int ut.code),
      (textValue "Payload".toList,.map payload),
      (textValue "UserId".toList,textValue userId)]]]

/-- `create_ping`, before it is serialized. -/
def pingValue : Value := .array [.int 6]

/-- A message of the server; dates are in nanoseconds. -/
inductive Notice where
  /-- `send_user_update`. -/
  | user (ut : UpdateType) (uuid : Text) (updatedAt : ℤ)
  /-- `send_logout`. -/
  | logout (uuid : Text) (updatedAt : ℤ) (actingDevice : Option Text)
  /-- `send_folder_update`. -/
  | folder (ut : UpdateType) (uuid userUuid : Text) (updatedAt : ℤ) (device : Text)
  /-- `send_cipher_update`, with the time at which it is called. -/
  | cipher (ut : UpdateType) (uuid : Text) (userUuid organizationUuid : Option Text) (updatedAt : ℤ) (device : Text)
    (collectionUuids : Option (List Text)) (now : ℤ)
  /-- `send_send_update`. -/
  | send (ut : UpdateType) (uuid : Text) (userUuid : Option Text) (revisionDate : ℤ)
  /-- `send_auth_request`. -/
  | authRequest (userId authRequestUuid device : Text)
  /-- `send_auth_response`. -/
  | authResponse (userId authRequestId device : Text)
  /-- `send_auth_response` of the anonymous hub. -/
  | anonymousResponse (userId authRequestId : Text)
  /-- `create_ping`. -/
  | ping
  deriving DecidableEq

/-- The value of a message. -/
def Notice.value : Notice → Value
  | .user ut uuid updatedAt =>
    updateValue [(textValue "UserId".toList,textValue uuid),(textValue "Date".toList,serializeDate updatedAt)] ut none
  | .logout uuid updatedAt actingDevice =>
    updateValue [(textValue "UserId".toList,textValue uuid),(textValue "Date".toList,serializeDate updatedAt)]
      .logOut actingDevice
  | .folder ut uuid userUuid updatedAt device =>
    updateValue [(textValue "Id".toList,textValue uuid),(textValue "UserId".toList,textValue userUuid),
      (textValue "RevisionDate".toList,serializeDate updatedAt)] ut (some device)
  | .cipher ut uuid userUuid organizationUuid updatedAt device collectionUuids now =>
    let orgId := convertOption organizationUuid
    let (userId,collections,revisionDate) :=
      match collectionUuids with
      | some collectionUuids => (Value.nil,Value.array (collectionUuids.map textValue),serializeDate now)
      | none => (convertOption userUuid,Value.nil,serializeDate updatedAt)
    updateValue [(textValue "Id".toList,textValue uuid),(textValue "UserId".toList,userId),
      (textValue "OrganizationId".toList,orgId),(textValue "CollectionIds".toList,collections),
      (textValue "RevisionDate".toList,revisionDate)] ut (some device)
  | .send ut uuid userUuid revisionDate =>
    updateValue [(textValue "Id".toList,textValue uuid),(textValue "UserId".toList,convertOption userUuid),
      (textValue "RevisionDate".toList,serializeDate revisionDate)] ut none
  | .authRequest userId authRequestUuid device =>
    updateValue [(textValue "Id".toList,textValue authRequestUuid),(textValue "UserId".toList,textValue userId)]
      .authRequest (some device)
  | .authResponse userId authRequestId device =>
    updateValue [(textValue "Id".toList,textValue authRequestId),(textValue "UserId".toList,textValue userId)]
      .authRequestResponse (some device)
  | .anonymousResponse userId authRequestId =>
    anonymousValue [(textValue "Id".toList,textValue authRequestId),(textValue "UserId".toList,textValue userId)]
      .authRequestResponse userId
  | .ping => pingValue

/-- The bytes of a message. -/
def Notice.data (n : Notice) : List UInt8 := serialize n.value

section Reading

/-- A member of a message, as a client reads it. -/
inductive Field where
  /-- Nothing. -/
  | null
  /-- Text. -/
  | text (text : Text)
  /-- Texts. -/
  | texts (texts : List Text)
  /-- A date. -/
  | date (date : ℤ)
  deriving DecidableEq

/-- The text of a value. -/
def readText : Value → Option Text
  | .str bytes => some (Utf8.decodeFrom none bytes)
  | _ => none

/-- The date of a value: 30 bits of nanoseconds and 34 bits of seconds. -/
def readDate : Value → Option ℤ
  | .ext type data =>
    if type=(-1) ∧ data.length=8 then some (Int.ofNat (ofBe data%2^34*1000000000+ofBe data/2^34)) else none
  | _ => none

/-- A member. -/
def readField : Value → Option Field
  | .nil => some .null
  | .str bytes => (readText (.str bytes)).map .text
  | .array values => (values.mapM readText).map .texts
  | .ext type data => (readDate (.ext type data)).map .date
  | _ => none

/-- Members with their names. -/
def readFields (pairs : List (Value×Value)) : Option (List (Text×Field)) :=
  pairs.mapM fun (k,v) => do
    let name ← readText k
    let field ← readField v
    return (name,field)

/-- What a client gets. -/
inductive Reading where
  /-- A ping. -/
  | ping
  /-- An update, with the device that has made it. -/
  | update (contextId : Field) (type : ℤ) (payload : List (Text×Field))
  /-- An answer to a request for a login. -/
  | anonymous (type : ℤ) (payload : List (Text×Field)) (userId : Field)
  deriving DecidableEq

/-- An invocation of a method, with the members of its argument. -/
def readInvocation (target : Text) (first second third : Value) : Option Reading :=
  if target="ReceiveMessage".toList then
    match second,third with
    | .int type,.map payload => do
      let contextId ← readField first
      let payload ← readFields payload
      return .update contextId type payload
    | _,_ => none
  else if target="AuthRequestResponseRecieved".toList then
    match first,second with
    | .int type,.map payload => do
      let payload ← readFields payload
      let userId ← readField third
      return .anonymous type payload userId
    | _,_ => none
  else none

/-- A value as a message. -/
def readMessage : Value → Option Reading
  | .array [.int kind] => if kind=6 then some .ping else none
  | .array [.int kind,.map [],.nil,target,.array [.map [(_,first),(_,second),(_,third)]]] =>
    if kind=1 then (readText target).bind fun target => readInvocation target first second third else none
  | _ => none

/-- What a client gets from the bytes that have come, and those of a message
that is not complete. -/
def received (bytes : List UInt8) : List (Option Reading)×List UInt8 :=
  ((readFrames bytes.length bytes).1.map fun block => (read block).bind readMessage,(readFrames bytes.length bytes).2)

end Reading

/-- Text that may be missing. -/
def Field.ofOption (option : Option Text) : Field := option.elim .null .text

/-- What a message says. -/
def Notice.reading : Notice → Reading
  | .user ut uuid updatedAt =>
    .update .null ut.code [("UserId".toList,.text uuid),("Date".toList,.date updatedAt)]
  | .logout uuid updatedAt actingDevice =>
    .update (.ofOption actingDevice) UpdateType.logOut.code
      [("UserId".toList,.text uuid),("Date".toList,.date updatedAt)]
  | .folder ut uuid userUuid updatedAt device =>
    .update (.text device) ut.code [("Id".toList,.text uuid),("UserId".toList,.text userUuid),
      ("RevisionDate".toList,.date updatedAt)]
  | .cipher ut uuid userUuid organizationUuid updatedAt device none _ =>
    .update (.text device) ut.code [("Id".toList,.text uuid),("UserId".toList,.ofOption userUuid),
      ("OrganizationId".toList,.ofOption organizationUuid),("CollectionIds".toList,.null),
      ("RevisionDate".toList,.date updatedAt)]
  | .cipher ut uuid _ organizationUuid _ device (some collectionUuids) now =>
    .update (.text device) ut.code [("Id".toList,.text uuid),("UserId".toList,.null),
      ("OrganizationId".toList,.ofOption organizationUuid),("CollectionIds".toList,.texts collectionUuids),
      ("RevisionDate".toList,.date now)]
  | .send ut uuid userUuid revisionDate =>
    .update .null ut.code [("Id".toList,.text uuid),("UserId".toList,.ofOption userUuid),
      ("RevisionDate".toList,.date revisionDate)]
  | .authRequest userId authRequestUuid device =>
    .update (.text device) UpdateType.authRequest.code
      [("Id".toList,.text authRequestUuid),("UserId".toList,.text userId)]
  | .authResponse userId authRequestId device =>
    .update (.text device) UpdateType.authRequestResponse.code
      [("Id".toList,.text authRequestId),("UserId".toList,.text userId)]
  | .anonymousResponse userId authRequestId =>
    .anonymous UpdateType.authRequestResponse.code
      [("Id".toList,.text authRequestId),("UserId".toList,.text userId)] (.text userId)
  | .ping => .ping

/-- The date that a message carries. -/
def Notice.date : Notice → Option ℤ
  | .user _ _ updatedAt => some updatedAt
  | .logout _ updatedAt _ => some updatedAt
  | .folder _ _ _ updatedAt _ => some updatedAt
  | .cipher _ _ _ _ updatedAt _ none _ => some updatedAt
  | .cipher _ _ _ _ _ _ (some _) now => some now
  | .send _ _ _ revisionDate => some revisionDate
  | _ => none

/-- The texts that a message carries. -/
def Notice.texts : Notice → List Text
  | .user _ uuid _ => [uuid]
  | .logout uuid _ actingDevice => uuid::actingDevice.toList
  | .folder _ uuid userUuid _ device => [uuid,userUuid,device]
  | .cipher _ uuid userUuid organizationUuid _ device collectionUuids _ =>
    uuid::device::(userUuid.toList++organizationUuid.toList++collectionUuids.getD [])
  | .send _ uuid userUuid _ => uuid::userUuid.toList
  | .authRequest userId authRequestUuid device => [userId,authRequestUuid,device]
  | .authResponse userId authRequestId device => [userId,authRequestId,device]
  | .anonymousResponse userId authRequestId => [userId,authRequestId]
  | .ping => []

/-- MessagePack can write the lengths. -/
def Notice.Small (n : Notice) : Prop :=
  n.texts.length<4294967296 ∧ ∀ text∈n.texts,(utf8 text).length<4294967296

instance (n : Notice) : Decidable n.Small :=
  inferInstanceAs (Decidable (n.texts.length<4294967296 ∧ ∀ text∈n.texts,(utf8 text).length<4294967296))

/-- Seconds since 1970 in 34 bits. -/
def Dated (date : ℤ) : Prop := 0 ≤ date ∧ date<17179869184*1000000000

/-- The loop writes seven bits at a time. -/
theorem lengthBytes_eq (size : ℕ) : lengthBytes size=sizeBytes size := by
  induction size using Nat.strongRecOn with
  | _ size ih =>
    have hpart : size &&& 0x7f=size%128 := Nat.and_two_pow_sub_one_eq_mod size 7
    have hmark : size%128 ||| 0x80=size%128+128 := by
      have hor := Nat.two_pow_add_eq_or_of_lt (i:=7) (b:=size%128) (by omega) 1
      rw [Nat.mul_one] at hor
      rw [Nat.or_comm,Nat.add_comm]
      exact hor.symm
    have hshift : size >>> 7=size/128 := Nat.shiftRight_eq_div_pow size 7
    rw [lengthBytes,sizeBytes,hpart,hshift,hmark]
    split_ifs with hmore hsmall hsmall
    · omega
    · rw [ih (size/128) (by omega)]
    · rw [Nat.mod_eq_of_lt hsmall]
    · omega

theorem serialize_eq (val : Value) : serialize val=frame val.write := by
  unfold serialize frame
  rw [lengthBytes_eq]

/-- The bits of a date with seconds that fit. -/
theorem toNat_timestamp {seconds nanos : ℕ} (hseconds : seconds<2^34) (hnanos : nanos<2^30) :
    (BitVec.ofInt 64 nanos <<< 34 ||| BitVec.ofInt 64 seconds).toNat=nanos*2^34+seconds := by
  have hs : (BitVec.ofInt 64 (seconds : ℤ)).toNat=seconds := by
    rw [BitVec.ofInt_natCast,BitVec.toNat_ofNat,Nat.mod_eq_of_lt (by omega)]
  have hn : (BitVec.ofInt 64 (nanos : ℤ)).toNat=nanos := by
    rw [BitVec.ofInt_natCast,BitVec.toNat_ofNat,Nat.mod_eq_of_lt (by omega)]
  rw [BitVec.toNat_or,BitVec.toNat_shiftLeft,hs,hn,Nat.shiftLeft_eq,Nat.mod_eq_of_lt (by omega),Nat.mul_comm nanos]
  exact (Nat.two_pow_add_eq_or_of_lt hseconds nanos).symm

/-- The low bits of a date are those of its seconds. -/
theorem mod_timestamp (nanos : BitVec 64) (seconds : ℕ) :
    (nanos <<< 34 ||| BitVec.ofInt 64 (seconds : ℤ)).toNat%2^34=seconds%2^34 := by
  have hs : (BitVec.ofInt 64 (seconds : ℤ)).toNat=seconds%2^64 := by
    rw [BitVec.ofInt_natCast,BitVec.toNat_ofNat]
  have hn : nanos.toNat <<< 34%2^64%2^34=0 := by
    rw [Nat.shiftLeft_eq,Nat.mod_mod_of_dvd _ (Nat.pow_dvd_pow 2 (by decide)),Nat.mul_mod_left]
  rw [BitVec.toNat_or,BitVec.toNat_shiftLeft,Nat.or_mod_two_pow,hn,hs,Nat.zero_or]
  exact Nat.mod_mod_of_dvd _ (Nat.pow_dvd_pow 2 (by decide))

/-- A date is read back exactly if it is from 1970 to 2514. -/
theorem readDate_serializeDate (date : ℤ) : readDate (serializeDate date)=some date ↔ Dated date := by
  have hread : ∀ timestamp : BitVec 64,readDate (.ext (-1) (be 8 timestamp.toNat))=
      some (Int.ofNat (timestamp.toNat%2^34*1000000000+timestamp.toNat/2^34)) := by
    intro timestamp
    have hlt := timestamp.isLt
    rw [readDate,if_pos ⟨rfl,length_be 8 _⟩,ofBe_be,Nat.mod_eq_of_lt (a:=timestamp.toNat) (by omega)]
  unfold serializeDate
  dsimp only
  rw [hread,Option.some.injEq]
  constructor
  · intro h
    have hlt := (BitVec.ofInt 64 (date%1000000000) <<< 34 ||| BitVec.ofInt 64 (date/1000000000)).isLt
    have hpos : 0 ≤ date := h ▸ Int.natCast_nonneg _
    obtain ⟨seconds,hseconds⟩ := Int.eq_ofNat_of_zero_le (show 0 ≤ date/1000000000 by omega)
    rw [hseconds] at h hlt
    have hlow := mod_timestamp (BitVec.ofInt 64 (date%1000000000)) seconds
    refine ⟨hpos,?_⟩
    generalize (BitVec.ofInt 64 (date%1000000000) <<< 34 ||| BitVec.ofInt 64 (seconds : ℤ)).toNat=timestamp at *
    rw [hlow] at h
    change ((seconds%2^34*1000000000+timestamp/2^34 : ℕ) : ℤ)=date at h
    omega
  · rintro ⟨hlow,hhigh⟩
    obtain ⟨seconds,hseconds⟩ := Int.eq_ofNat_of_zero_le (show 0 ≤ date/1000000000 by omega)
    obtain ⟨nanos,hnanos⟩ := Int.eq_ofNat_of_zero_le (show 0 ≤ date%1000000000 by omega)
    rw [hseconds,hnanos,toNat_timestamp (by omega) (by omega)]
    change (((nanos*2^34+seconds)%2^34*1000000000+(nanos*2^34+seconds)/2^34 : ℕ) : ℤ)=date
    omega

@[simp] theorem readText_textValue (text : Text) : readText (textValue text)=some text := by
  unfold readText textValue
  exact congrArg some (Utf8.decodeFrom_encode text)

@[simp] theorem readField_textValue (text : Text) : readField (textValue text)=some (.text text) := by
  change (readText (textValue text)).map Field.text=_
  rw [readText_textValue]
  rfl

@[simp] theorem readField_convertOption (option : Option Text) :
    readField (convertOption option)=some (.ofOption option) := by
  cases option with
  | none => rfl
  | some text => exact readField_textValue text

theorem readField_texts (texts : List Text) : readField (.array (texts.map textValue))=some (.texts texts) := by
  have hmap : (texts.map textValue).mapM readText=some texts := by
    induction texts with
    | nil => rfl
    | cons text texts ih => simp [ih]
  change ((texts.map textValue).mapM readText).map Field.texts=_
  rw [hmap]
  rfl

/-- An update says its members. -/
theorem readMessage_updateValue {payload : List (Value×Value)} {members : List (Text×Field)} (ut : UpdateType)
    (device : Option Text) (h : readFields payload=some members) :
    readMessage (updateValue payload ut device)=some (.update (.ofOption device) ut.code members) := by
  change (readText (textValue "ReceiveMessage".toList)).bind (fun target =>
    readInvocation target (convertOption device) (.int ut.code) (.map payload))=_
  rw [readText_textValue,Option.bind_some]
  unfold readInvocation
  rw [if_pos rfl,readField_convertOption]
  dsimp only
  rw [h]
  rfl

/-- And so does an answer to a request for a login. -/
theorem readMessage_anonymousValue {payload : List (Value×Value)} {members : List (Text×Field)} (ut : UpdateType)
    (user : Text) (h : readFields payload=some members) :
    readMessage (anonymousValue payload ut user)=some (.anonymous ut.code members (.text user)) := by
  change (readText (textValue "AuthRequestResponseRecieved".toList)).bind (fun target =>
    readInvocation target (.int ut.code) (.map payload) (textValue user))=_
  rw [readText_textValue,Option.bind_some]
  unfold readInvocation
  rw [if_neg (by decide),if_pos rfl,readField_textValue]
  dsimp only
  rw [h]
  rfl

/-- A message with another date. -/
def Notice.withDate (date : ℤ) : Notice → Notice
  | .user ut uuid _ => .user ut uuid date
  | .logout uuid _ actingDevice => .logout uuid date actingDevice
  | .folder ut uuid userUuid _ device => .folder ut uuid userUuid date device
  | .cipher ut uuid userUuid organizationUuid _ device none now =>
    .cipher ut uuid userUuid organizationUuid date device none now
  | .cipher ut uuid userUuid organizationUuid updatedAt device (some collectionUuids) _ =>
    .cipher ut uuid userUuid organizationUuid updatedAt device (some collectionUuids) date
  | .send ut uuid userUuid _ => .send ut uuid userUuid date
  | n => n

/-- A message says what it is made of, with the date that is read. -/
theorem readMessage_withDate {n : Notice} {date other : ℤ} (hdate : n.date=some date)
    (h : readField (serializeDate date)=some (.date other)) : readMessage n.value=some (n.withDate other).reading := by
  have hnil : readField .nil=some .null := rfl
  cases n with
  | user ut uuid updatedAt =>
    cases hdate
    exact readMessage_updateValue _ _ (by simp [readFields,h])
  | logout uuid updatedAt actingDevice =>
    cases hdate
    exact readMessage_updateValue _ _ (by simp [readFields,h])
  | folder ut uuid userUuid updatedAt device =>
    cases hdate
    exact readMessage_updateValue _ _ (by simp [readFields,h])
  | cipher ut uuid userUuid organizationUuid updatedAt device collectionUuids now =>
    cases collectionUuids with
    | none =>
      cases hdate
      exact readMessage_updateValue _ _ (by simp [readFields,h,hnil])
    | some collectionUuids =>
      cases hdate
      exact readMessage_updateValue _ _ (by simp [readFields,h,hnil,readField_texts])
  | send ut uuid userUuid revisionDate =>
    cases hdate
    exact readMessage_updateValue _ _ (by simp [readFields,h])
  | authRequest userId authRequestUuid device => cases hdate
  | authResponse userId authRequestId device => cases hdate
  | anonymousResponse userId authRequestId => cases hdate
  | ping => cases hdate

/-- So does one without a date. -/
theorem readMessage_dateless {n : Notice} (hdate : n.date=none) : readMessage n.value=some n.reading := by
  cases n with
  | user ut uuid updatedAt => cases hdate
  | logout uuid updatedAt actingDevice => cases hdate
  | folder ut uuid userUuid updatedAt device => cases hdate
  | cipher ut uuid userUuid organizationUuid updatedAt device collectionUuids now =>
    cases collectionUuids <;> cases hdate
  | send ut uuid userUuid revisionDate => cases hdate
  | authRequest userId authRequestUuid device => exact readMessage_updateValue _ _ (by simp [readFields])
  | authResponse userId authRequestId device => exact readMessage_updateValue _ _ (by simp [readFields])
  | anonymousResponse userId authRequestId => exact readMessage_anonymousValue _ _ (by simp [readFields])
  | ping => rfl

/-- Another date shows. -/
theorem reading_withDate {n : Notice} {date other : ℤ} (hdate : n.date=some date) :
    (n.withDate other).reading=n.reading ↔ other=date := by
  cases n with
  | user ut uuid updatedAt =>
    cases hdate
    simp [Notice.withDate,Notice.reading]
  | logout uuid updatedAt actingDevice =>
    cases hdate
    simp [Notice.withDate,Notice.reading]
  | folder ut uuid userUuid updatedAt device =>
    cases hdate
    simp [Notice.withDate,Notice.reading]
  | cipher ut uuid userUuid organizationUuid updatedAt device collectionUuids now =>
    cases collectionUuids <;> cases hdate <;> simp [Notice.withDate,Notice.reading]
  | send ut uuid userUuid revisionDate =>
    cases hdate
    simp [Notice.withDate,Notice.reading]
  | authRequest userId authRequestUuid device => cases hdate
  | authResponse userId authRequestId device => cases hdate
  | anonymousResponse userId authRequestId => cases hdate
  | ping => cases hdate

/-- A date is read as some date, which is another one unless it is from 1970 to
2514. -/
theorem readField_date (date : ℤ) :
    ∃ other,readField (serializeDate date)=some (.date other) ∧ (other=date ↔ Dated date) := by
  have hread : ∃ other,readDate (serializeDate date)=some other := by
    unfold serializeDate readDate
    dsimp only
    rw [if_pos ⟨rfl,length_be 8 _⟩]
    exact ⟨_,rfl⟩
  obtain ⟨other,hother⟩ := hread
  have hiff := readDate_serializeDate date
  rw [hother,Option.some.injEq] at hiff
  refine ⟨other,?_,hiff⟩
  change (readDate (serializeDate date)).map Field.date=_
  rw [hother]
  rfl

/-- A message is read as it was meant exactly if its date is from 1970 to
2514. -/
theorem readMessage_value_iff (n : Notice) :
    readMessage n.value=some n.reading ↔ ∀ date,n.date=some date → Dated date := by
  cases hdate : n.date with
  | none =>
    have hread := readMessage_dateless hdate
    simp [hread]
  | some date =>
    obtain ⟨other,hother,hiff⟩ := readField_date date
    rw [readMessage_withDate hdate hother,Option.some.injEq,reading_withDate hdate,hiff]
    simp

section Fitting

theorem fits_text {text : Text} (h : (utf8 text).length<4294967296) : (textValue text).Fits := by
  unfold textValue
  rw [Value.Fits]
  exact h

theorem fits_option {option : Option Text} (h : ∀ text∈option.toList,(utf8 text).length<4294967296) :
    (convertOption option).Fits := by
  cases option with
  | none =>
    change Value.nil.Fits
    rw [Value.Fits]
    trivial
  | some text => exact fits_text (h text (List.mem_singleton_self _))

theorem fits_texts {texts : List Text} (hlength : texts.length<4294967296)
    (h : ∀ text∈texts,(utf8 text).length<4294967296) : (Value.array (texts.map textValue)).Fits := by
  have hvalues : FitValues (texts.map textValue) := by
    clear hlength
    induction texts with
    | nil =>
      rw [List.map_nil,FitValues]
      trivial
    | cons text texts ih =>
      rw [List.map_cons,FitValues]
      exact ⟨fits_text (h text List.mem_cons_self),ih fun t ht => h t (List.mem_cons_of_mem _ ht)⟩
  rw [Value.Fits]
  refine ⟨?_,hvalues⟩
  change (texts.map textValue).length<_
  rwa [List.length_map]

theorem fits_date (date : ℤ) : (serializeDate date).Fits := by
  unfold serializeDate
  dsimp only
  rw [Value.Fits,length_be]
  exact ⟨by decide,by decide,by decide⟩

theorem fits_code (ut : UpdateType) : (Value.int ut.code).Fits := by
  rw [Value.Fits]
  cases ut <;> exact ⟨by decide,by decide⟩

theorem fits_nil : Value.nil.Fits := by
  rw [Value.Fits]
  trivial

theorem fits_int (n : ℤ) (h : -9223372036854775808 ≤ n ∧ n<18446744073709551616) : (Value.int n).Fits := by
  rw [Value.Fits]
  exact h

theorem fits_map {pairs : List (Value×Value)} (hlength : pairs.length<4294967296) (h : FitPairs pairs) :
    (Value.map pairs).Fits := by
  rw [Value.Fits]
  exact ⟨hlength,h⟩

theorem fitPairs_cons {name : Text} {v : Value} {pairs : List (Value×Value)} (hname : (utf8 name).length<4294967296)
    (hv : v.Fits) (h : FitPairs pairs) : FitPairs ((textValue name,v)::pairs) := by
  rw [FitPairs]
  exact ⟨fits_text hname,hv,h⟩

theorem fitPairs_nil : FitPairs [] := by
  rw [FitPairs]
  trivial

/-- An invocation has room for its lengths. -/
theorem fits_invocation {target : Text} {argument : List (Value×Value)} (htarget : (utf8 target).length<4294967296)
    (hlength : argument.length<4294967296) (h : FitPairs argument) :
    (Value.array [.int 1,.map [],.nil,textValue target,.array [.map argument]]).Fits := by
  have hempty : (Value.map []).Fits := fits_map (by decide) fitPairs_nil
  simp only [Value.Fits,FitValues] at hempty ⊢
  exact ⟨show 5<4294967296 by decide,⟨by decide,by decide⟩,hempty,trivial,fits_text htarget,
    ⟨show 1<4294967296 by decide,⟨hlength,h⟩,trivial⟩,trivial⟩

theorem fits_update {payload : List (Value×Value)} (hlength : payload.length<4294967296) (h : FitPairs payload)
    (ut : UpdateType) {device : Option Text} (hdevice : ∀ text∈device.toList,(utf8 text).length<4294967296) :
    (updateValue payload ut device).Fits :=
  fits_invocation (by decide) (show 3<4294967296 by decide) <|
    fitPairs_cons (by decide) (fits_option hdevice) <| fitPairs_cons (by decide) (fits_code ut) <|
      fitPairs_cons (by decide) (fits_map hlength h) fitPairs_nil

theorem fits_anonymous {payload : List (Value×Value)} (hlength : payload.length<4294967296) (h : FitPairs payload)
    (ut : UpdateType) {user : Text} (huser : (utf8 user).length<4294967296) : (anonymousValue payload ut user).Fits :=
  fits_invocation (by decide) (show 3<4294967296 by decide) <|
    fitPairs_cons (by decide) (fits_code ut) <| fitPairs_cons (by decide) (fits_map hlength h) <|
      fitPairs_cons (by decide) (fits_text huser) fitPairs_nil

/-- A message has room for its lengths. -/
theorem fits_value {n : Notice} (h : n.Small) : n.value.Fits := by
  obtain ⟨hlength,htexts⟩ := h
  have htext : ∀ text∈n.texts,(textValue text).Fits := fun text ht => fits_text (htexts text ht)
  cases n with
  | user ut uuid updatedAt =>
    exact fits_update (by simp) (fitPairs_cons (by decide) (htext uuid (by simp [Notice.texts]))
      (fitPairs_cons (by decide) (fits_date updatedAt) fitPairs_nil)) ut (by simp)
  | logout uuid updatedAt actingDevice =>
    exact fits_update (by simp) (fitPairs_cons (by decide) (htext uuid (by simp [Notice.texts]))
      (fitPairs_cons (by decide) (fits_date updatedAt) fitPairs_nil)) _
      fun text ht => htexts text (List.mem_cons_of_mem _ ht)
  | folder ut uuid userUuid updatedAt device =>
    exact fits_update (by simp) (fitPairs_cons (by decide) (htext uuid (by simp [Notice.texts]))
      (fitPairs_cons (by decide) (htext userUuid (by simp [Notice.texts]))
        (fitPairs_cons (by decide) (fits_date updatedAt) fitPairs_nil))) ut
      fun text ht => htexts text (by simp_all [Notice.texts])
  | cipher ut uuid userUuid organizationUuid updatedAt device collectionUuids now =>
    have huser : (convertOption userUuid).Fits := fits_option fun text ht => htexts text (by simp_all [Notice.texts])
    have horg : (convertOption organizationUuid).Fits :=
      fits_option fun text ht => htexts text (by simp_all [Notice.texts])
    have hdevice : ∀ text∈(some device).toList,(utf8 text).length<4294967296 :=
      fun text ht => htexts text (by simp_all [Notice.texts])
    have huuid := htext uuid (by simp [Notice.texts])
    cases collectionUuids with
    | none =>
      exact fits_update (by simp) (fitPairs_cons (by decide) huuid (fitPairs_cons (by decide) huser
        (fitPairs_cons (by decide) horg (fitPairs_cons (by decide) fits_nil
          (fitPairs_cons (by decide) (fits_date updatedAt) fitPairs_nil))))) ut hdevice
    | some collectionUuids =>
      have hcollections : (Value.array (collectionUuids.map textValue)).Fits := by
        refine fits_texts ?_ fun text ht => htexts text (by simp_all [Notice.texts])
        refine lt_of_le_of_lt ?_ hlength
        simp [Notice.texts]
        omega
      exact fits_update (by simp) (fitPairs_cons (by decide) huuid (fitPairs_cons (by decide) fits_nil
        (fitPairs_cons (by decide) horg (fitPairs_cons (by decide) hcollections
          (fitPairs_cons (by decide) (fits_date now) fitPairs_nil))))) ut hdevice
  | send ut uuid userUuid revisionDate =>
    exact fits_update (by simp) (fitPairs_cons (by decide) (htext uuid (by simp [Notice.texts]))
      (fitPairs_cons (by decide) (fits_option fun text ht => htexts text (List.mem_cons_of_mem _ ht))
        (fitPairs_cons (by decide) (fits_date revisionDate) fitPairs_nil))) ut (by simp)
  | authRequest userId authRequestUuid device =>
    exact fits_update (by simp) (fitPairs_cons (by decide) (htext authRequestUuid (by simp [Notice.texts]))
      (fitPairs_cons (by decide) (htext userId (by simp [Notice.texts])) fitPairs_nil)) _
      fun text ht => htexts text (by simp_all [Notice.texts])
  | authResponse userId authRequestId device =>
    exact fits_update (by simp) (fitPairs_cons (by decide) (htext authRequestId (by simp [Notice.texts]))
      (fitPairs_cons (by decide) (htext userId (by simp [Notice.texts])) fitPairs_nil)) _
      fun text ht => htexts text (by simp_all [Notice.texts])
  | anonymousResponse userId authRequestId =>
    exact fits_anonymous (by simp) (fitPairs_cons (by decide) (htext authRequestId (by simp [Notice.texts]))
      (fitPairs_cons (by decide) (htext userId (by simp [Notice.texts])) fitPairs_nil)) _
      (htexts userId (by simp [Notice.texts]))
  | ping =>
    change pingValue.Fits
    simp only [pingValue,Value.Fits,FitValues]
    exact ⟨show 1<4294967296 by decide,⟨by decide,by decide⟩,trivial⟩

end Fitting

/-- A client that has got any part of the messages of the server keeps the
bytes of the last one that is not complete, and reads the others as they were
meant exactly if their dates are from 1970 to 2514. -/
theorem notices_read {ns : List Notice} (hsmall : ∀ n∈ns,n.Small) {next : Notice} {k : ℕ} (hk : k<next.data.length) :
    (received ((ns.map Notice.data).flatten++next.data.take k)).2=next.data.take k ∧
    ((received ((ns.map Notice.data).flatten++next.data.take k)).1=ns.map (fun n => some n.reading) ↔
      ∀ n∈ns,∀ date,n.date=some date → Dated date) := by
  have hdata : ∀ n : Notice,n.data=frame n.value.write := fun n => serialize_eq n.value
  have hblocks : (ns.map Notice.data).flatten=((ns.map fun n => n.value.write).map frame).flatten := by
    rw [List.map_map]
    exact congrArg List.flatten (List.map_congr_left fun n _ => hdata n)
  have hlength := length_le_flatten (ns.map fun n => n.value.write)
  have hfuel : (ns.map fun n => n.value.write).length ≤
      (((ns.map fun n => n.value.write).map frame).flatten++(frame next.value.write).take k).length := by
    rw [List.length_append]
    omega
  rw [hdata] at hk ⊢
  unfold received
  rw [hblocks,readFrames_append _ hk hfuel]
  refine ⟨rfl,?_⟩
  dsimp only
  rw [List.map_map,List.map_inj_left]
  have hone : ∀ n∈ns,((fun block => (read block).bind readMessage) ∘ fun n => n.value.write) n=some n.reading ↔
      ∀ date,n.date=some date → Dated date := by
    intro n hn
    change (read n.value.write).bind readMessage=_ ↔ _
    rw [read_write (fits_value (hsmall n hn)),Option.bind_some]
    exact readMessage_value_iff n
  exact ⟨fun h n hn => (hone n hn).mp (h n hn),fun h n hn => (hone n hn).mpr (h n hn)⟩

/-- An item that has changed at a time in 2023. -/
def changed : Notice := .cipher .syncCipherUpdate ['c'] (some ['u']) none 1700000000123456789 ['d'] none 0

theorem notices_read_sample :
    (received (([changed,.ping].map Notice.data).flatten++Notice.ping.data.take 0)).1=
      [some (.update (.text ['d']) 0 [("Id".toList,.text ['c']),("UserId".toList,.text ['u']),
        ("OrganizationId".toList,.null),("CollectionIds".toList,.null),
        ("RevisionDate".toList,.date 1700000000123456789)]),some .ping] := by
  have hdata : 0<Notice.ping.data.length := by
    rw [Notice.data,serialize_eq]
    exact length_frame_pos _
  have hsmall : ∀ n∈[changed,.ping],n.Small := by decide
  refine (notices_read hsmall hdata).2.mpr fun n hn date hdate => ?_
  simp only [List.mem_cons,List.not_mem_nil,or_false] at hn
  rcases hn with rfl|rfl
  · cases hdate
    unfold Dated
    omega
  · cases hdate

end NadSafe.UpdateFrames
