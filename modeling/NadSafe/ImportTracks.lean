import NadSafe.ImportWrites

/-!
# The members of an import, entry by entry

What the entries so far have made of the accounts and memberships that were
there before. The last entry for an address decides whether its member is
active, where the guard for the last owner may keep him; the identifiers are
set one after the other.
-/

namespace NadSafe.ImportTracks

open HostText TableRows ServerTables ServerModels DirectoryImport MemberWrites ImportWrites

section Identifiers

variable {x : Option Text} {es : List OrgImportUserData} {e : OrgImportUserData}

/-- `Membership::set_external_id`, on the column alone. -/
def nextId (x : Option Text) (e : OrgImportUserData) : Option Text :=
  if x=some e.externalId then x else if e.externalId=[] then none else some e.externalId

/-- The identifiers of a list of entries are set. -/
def setIds (x : Option Text) (es : List OrgImportUserData) : Option Text := es.foldl nextId x

theorem externalId_set (m : Membership) (e : OrgImportUserData) :
    (setExternalId m e.externalId).1.externalId=nextId m.externalId e := by
  unfold setExternalId nextId
  split <;> rfl

theorem setIds_append : setIds x (es++[e])=nextId (setIds x es) e := by
  unfold setIds
  rw [List.foldl_append]
  rfl

/-- Nothing is set to an empty text. -/
theorem start_of_empty (h : setIds x es=some []) : x=some [] := by
  induction es generalizing x with
  | nil => exact h
  | cons e es ih =>
    have hnext : nextId x e=some [] := ih h
    unfold nextId at hnext
    split at hnext
    · exact hnext
    · split at hnext
      · cases hnext
      · rename_i hempty
        exact absurd (Option.some.inj hnext) hempty

/-- Except for an empty text that stays, the entry decides. -/
theorem nextId_of_ne (h : x≠some []) : nextId x e=if e.externalId=[] then none else some e.externalId := by
  unfold nextId
  split
  · rename_i hsame
    have hset : e.externalId≠[] := by
      intro hempty
      rw [hempty] at hsame
      exact h hsame
    rw [if_neg hset]
    exact hsame
  · rfl

/-- Entries that leave an empty text leave it again. -/
theorem setIds_empty (h : setIds x es=some []) : setIds (some []) es=some [] := by
  obtain rfl := start_of_empty h
  exact h

/-- The same entries once more set nothing new. -/
theorem setIds_twice (x : Option Text) (es : List OrgImportUserData) : setIds (setIds x es) es=setIds x es := by
  by_cases hempty : setIds x es=some []
  · rw [hempty]
    exact setIds_empty hempty
  rcases List.eq_nil_or_concat es with rfl|⟨l,e,rfl⟩
  · rfl
  rw [List.concat_eq_append] at hempty ⊢
  have hagain : setIds (setIds x (l++[e])) l≠some [] := fun h => hempty (start_of_empty h)
  rw [setIds_append,nextId_of_ne hagain,setIds_append]
  by_cases hbefore : setIds x l=some []
  · -- the text is empty before the last entry, and not after it
    rw [setIds_append] at hempty
    unfold nextId at hempty ⊢
    split at hempty
    · exact absurd hbefore hempty
    · rename_i hother
      rw [if_neg hother]
  · rw [nextId_of_ne hbefore]

end Identifiers

section Entries

variable (settings : Settings) (org : Uuid)

/-- The address that an entry is for. -/
def address (e : OrgImportUserData) : Text := settings.toLowercase e.email

/-- The entries for an address. -/
def entriesFor (done : List OrgImportUserData) (a : Text) : List OrgImportUserData :=
  done.filter fun e => address settings e=a

/-- A member of the organisation, by his address. -/
def At (a : Text) (t : Tables) (m : Membership) : Prop :=
  m∈t.members ∧ m.orgUuid=org ∧ ∃ u∈t.users,u.uuid=m.userUuid ∧ u.email=a

instance (a : Text) (t : Tables) (m : Membership) : Decidable (At org a t m) :=
  inferInstanceAs (Decidable (_ ∧ _ ∧ _))

/-- An entry needs no account, or finds one, or can create one. -/
def accepts (t : Tables) (e : OrgImportUserData) : Bool :=
  e.deleted || t.users.any (fun u => u.email=address settings e) || settings.isValidEmail (address settings e)

/-- A confirmed owner, and no other one. -/
def lastConfirmedOwner (t : Tables) (m : Membership) : Bool :=
  decide (m.atype=.owner ∧ m.status=Confirmed ∧ (Membership.confirmedByOrgAndType t org .owner).length≤1)

/-- The guard spares the member of a deleted entry. -/
def spares (t : Tables) (e : OrgImportUserData) : Bool :=
  e.deleted && t.members.any fun m => decide (At org (address settings e) t m) && lastConfirmedOwner org t m

/-- An address joins those that are spared, or leaves them. -/
def noted (spared : Bool) (a : Text) (k : List Text) : List Text := if spared=true then a::k else k.filter (·≠a)

/-- A member as the last entry for his address leaves him. -/
def Settles (k : List Text) (a : Text) (e : OrgImportUserData) (m : Membership) : Prop :=
  Invited≤ m.status ↔ e.deleted=false ∨ a∈k

/-- Only status and identifier may differ, and the status by a revocation. -/
structure Alike (m m' : Membership) : Prop where
  /-- All other columns. -/
  columns : m'={m with status := m'.status,externalId := m'.externalId}
  /-- The status, once restored. -/
  level : m'.restore.status=m.restore.status

/-- What the entries so far have made of a database. -/
structure Tracks (db : Database) (done : List OrgImportUserData) (k : List Text) (s : Database) : Prop where
  /-- Groups, their places and organisations. -/
  others : s.groups=db.groups ∧ s.groupsUsers=db.groupsUsers ∧ s.organizations=db.organizations
  /-- Accounts stay. -/
  users : ∀ u∈db.users,u∈s.users
  /-- New accounts are for entries whose addresses had none. -/
  created : ∀ u∈s.users,u∈db.users ∨ settings.isValidEmail u.email=true ∧
    ∃ e∈done,e.deleted=false ∧ address settings e=u.email ∧ ∀ q∈db.members,¬At org u.email db.toTables q
  /-- Memberships stay, and those without an entry stay as they are. -/
  old : ∀ q∈db.members,∃ q'∈s.members,Alike q q' ∧ ((∀ e∈done,¬At org (address settings e) db.toTables q) → q'=q)
  /-- New memberships are for entries whose addresses had none. -/
  joined : ∀ q'∈s.members,(∃ q∈db.members,Alike q q') ∨
    ∃ e∈done,e.deleted=false ∧ At org (address settings e) s.toTables q' ∧
      ∀ q∈db.members,¬At org (address settings e) db.toTables q
  /-- Identifiers. -/
  ids : ∀ m a,At org a s.toTables m → ∃ x,m.externalId=setIds x (entriesFor settings done a) ∧
    ∀ q∈db.members,q.uuid=m.uuid → x=q.externalId
  /-- Members are as their last entries say. -/
  settled : ∀ m a e,At org a s.toTables m → (entriesFor settings done a).getLast?=some e → Settles k a e m
  /-- Everybody in the directory is a member. -/
  present : ∀ e∈done,e.deleted=false → ∃ m,At org (address settings e) s.toTables m
  /-- Statuses. -/
  ranged : Ranged s

end Entries

section Members

variable {settings : Settings} {organization : Uuid} {t : Tables} {db s s' : Database} {a b : Text}
  {m m' q : Membership} {e : OrgImportUserData} {done : List OrgImportUserData} {k : List Text}

theorem Alike.refl (m : Membership) : Alike m m := ⟨rfl,rfl⟩

theorem Alike.trans (h : Alike m m') (h' : Alike m' q) : Alike m q := by
  refine ⟨?_,h'.level.trans h.level⟩
  rw [h'.columns,h.columns]

theorem Alike.uuid (h : Alike m m') : m'.uuid=m.uuid := by rw [h.columns]

theorem Alike.user (h : Alike m m') : m'.userUuid=m.userUuid := by rw [h.columns]

theorem Alike.org (h : Alike m m') : m'.orgUuid=m.orgUuid := by rw [h.columns]

theorem Alike.atype (h : Alike m m') : m'.atype=m.atype := by rw [h.columns]

/-- Rows that are alike, with the same status and identifier, are the same. -/
theorem Alike.eq (h : Alike m m') (hstatus : m'.status=m.status) (hid : m'.externalId=m.externalId) : m'=m := by
  rw [h.columns,hstatus,hid]

/-- Of two rows that are alike, both or neither are active. -/
theorem Alike.status_eq (h : Alike m m') (hm : InRange m) (hactive : Invited≤ m'.status ↔ Invited≤ m.status) :
    m'.status=m.status := by
  have hlevel := h.level
  rw [status_restore,status_restore] at hlevel
  unfold InRange at hm
  unfold ACTIVATE_REVOKE_DIFF Invited at *
  split at hlevel <;> split at hlevel <;> omega

/-- The identifier is set. -/
theorem alike_setExternalId (m : Membership) (x : Text) : Alike m (setExternalId m x).1 := by
  refine ⟨?_,?_⟩
  · unfold setExternalId
    split <;> rfl
  · rw [status_restore,status_restore,(setExternalId_same m x).2.2.2.2]

theorem alike_restore (h : InRange m) : Alike m m.restore := by
  refine ⟨?_,restore_restored h.1⟩
  unfold ServerTables.Membership.restore
  split <;> rfl

theorem alike_revoke (h : InRange m) : Alike m m.revoke := by
  refine ⟨?_,restore_revoked h.2⟩
  unfold ServerTables.Membership.revoke
  split <;> rfl

/-- An address has one member at most. -/
theorem At.unique (h : At organization a s.toTables m) (h' : At organization a s.toTables m') : m=m' := by
  obtain ⟨hm,horg,u,hu,huser,hemail⟩ := h
  obtain ⟨hm',horg',u',hu',huser',hemail'⟩ := h'
  have hsame : u=u' := eq_of_key s.email_nodup hu hu' (hemail.trans hemail'.symm)
  subst hsame
  exact eq_of_key s.membership_nodup hm hm' (Prod.ext (huser.symm.trans huser') (horg.trans horg'.symm))

/-- A member has one address. -/
theorem At.address_eq (h : At organization a s.toTables m) (h' : At organization b s.toTables m) : a=b := by
  obtain ⟨-,-,u,hu,huser,hemail⟩ := h
  obtain ⟨-,-,u',hu',huser',hemail'⟩ := h'
  have hsame : u=u' := eq_of_key s.user_nodup hu hu' (huser.trans huser'.symm)
  subst hsame
  exact hemail.symm.trans hemail'

theorem Tracks.refl (hranged : Ranged db) : Tracks settings organization db [] [] db := by
  refine ⟨⟨rfl,rfl,rfl⟩,fun _ hu => hu,fun _ hu => .inl hu,fun q hq => ⟨q,hq,.refl q,fun _ => rfl⟩,
    fun q hq => .inl ⟨q,hq,.refl q⟩,fun m _ hm => ⟨m.externalId,rfl,fun q hq hkey => ?_⟩,fun _ _ _ _ hlast => ?_,
    fun _ he => absurd he List.not_mem_nil,hranged⟩
  · rw [eq_of_key db.member_nodup hm.1 hq hkey.symm]
  · cases hlast

/-- A row takes the place of another one. -/
structure Replaces (m m' : Membership) (s s' : Database) : Prop where
  /-- Other tables. -/
  tables : s'.users=s.users ∧ s'.groups=s.groups ∧ s'.groupsUsers=s.groupsUsers ∧ s'.organizations=s.organizations
  /-- Memberships. -/
  members : ∀ q,q∈s'.members ↔ q=m' ∨ q∈s.members ∧ q.uuid≠m.uuid

theorem Replaces.refl (hm : m∈s.members) : Replaces m m s s := by
  refine ⟨⟨rfl,rfl,rfl,rfl⟩,fun q => ⟨fun hq => ?_,fun hq => ?_⟩⟩
  · by_cases hkey : q.uuid=m.uuid
    · exact .inl (eq_of_key s.member_nodup hq hm hkey)
    · exact .inr ⟨hq,hkey⟩
  · rcases hq with rfl|⟨hq,-⟩
    · exact hm
    · exact hq

/-- The members after such a step. -/
theorem Replaces.at (h : Replaces m m' s s') (halike : Alike m m') (hm : m∈s.members)
    (ha : At organization b s'.toTables q) :
    q=m' ∧ At organization b s.toTables m ∨ q.uuid≠m.uuid ∧ At organization b s.toTables q := by
  obtain ⟨hq,horg,u,hu,huser,hemail⟩ := ha
  rw [h.tables.1] at hu
  rcases (h.members q).mp hq with rfl|⟨hq,hother⟩
  · exact .inl ⟨rfl,hm,halike.org.symm.trans horg,u,hu,huser.trans halike.user,hemail⟩
  · exact .inr ⟨hother,hq,horg,u,hu,huser,hemail⟩

/-- A member is still there, or he was replaced. -/
theorem Replaces.to (h : Replaces m m' s s') (halike : Alike m m') (hm : m∈s.members)
    (ha : At organization b s.toTables q) :
    q=m ∧ At organization b s'.toTables m' ∨ q.uuid≠m.uuid ∧ At organization b s'.toTables q := by
  obtain ⟨hq,horg,u,hu,huser,hemail⟩ := ha
  rw [← h.tables.1] at hu
  by_cases hkey : q.uuid=m.uuid
  · obtain rfl := eq_of_key s.member_nodup hq hm hkey
    exact .inl ⟨rfl,(h.members m').mpr (.inl rfl),halike.org.trans horg,u,hu,huser.trans halike.user.symm,hemail⟩
  · exact .inr ⟨hkey,(h.members q).mpr (.inr ⟨hq,hkey⟩),horg,u,hu,huser,hemail⟩

/-- One more entry. -/
theorem entriesFor_append (done : List OrgImportUserData) (e : OrgImportUserData) (b : Text) :
    entriesFor settings (done++[e]) b=
      if address settings e=b then entriesFor settings done b++[e] else entriesFor settings done b := by
  unfold entriesFor
  rw [List.filter_append]
  split
  · rename_i h
    rw [List.filter_cons_of_pos (by simpa using h)]
    rfl
  · rename_i h
    rw [List.filter_cons_of_neg (by simpa using h)]
    exact List.append_nil _

theorem mem_noted_of_ne {spared : Bool} (hne : b≠a) : b∈noted spared a k ↔ b∈k := by
  unfold noted
  split
  · rw [List.mem_cons,or_iff_right hne]
  · rw [List.mem_filter,decide_eq_true_eq,and_iff_left hne]

theorem mem_noted {spared : Bool} : a∈noted spared a k ↔ spared=true := by
  unfold noted
  split
  · rename_i h
    exact iff_of_true List.mem_cons_self h
  · rename_i h
    refine iff_of_false (fun hmem => ?_) h
    exact of_decide_eq_true (List.mem_filter.mp hmem).2 rfl

/-- Where a member is now, he was before. -/
theorem Tracks.at_before (h : Tracks settings organization db done k s) (hq : q∈db.members) (halike : Alike q m)
    (hm : At organization b s.toTables m) : At organization b db.toTables q := by
  obtain ⟨-,horg,u,hu,huser,hemail⟩ := hm
  obtain ⟨v,hv,hvq⟩ := user_of_member hq
  have hsame : v=u := eq_of_key s.user_nodup (h.users v hv) hu (hvq.trans (halike.user.symm.trans huser.symm))
  subst hsame
  exact ⟨hq,halike.org.symm.trans horg,v,hv,hvq,hemail⟩

/-- Where a member was before, he is now. -/
theorem Tracks.at_after (h : Tracks settings organization db done k s) (hm : m∈s.members) (halike : Alike q m)
    (hq : At organization b db.toTables q) : At organization b s.toTables m := by
  obtain ⟨-,horg,u,hu,huser,hemail⟩ := hq
  exact ⟨hm,halike.org.trans horg,u,h.users u hu,huser.trans halike.user.symm,hemail⟩

/-- The member of an address is replaced, as an entry asks for. -/
theorem Tracks.replaces {k' : List Text} (h : Tracks settings organization db done k s)
    (hm : At organization (address settings e) s.toTables m) (hrow : Replaces m m' s s') (halike : Alike m m')
    (hid : m'.externalId=nextId m.externalId e) (hrange : InRange m') (hsettles : Settles k' (address settings e) e m')
    (hk : ∀ b,b≠address settings e → (b∈k' ↔ b∈k)) : Tracks settings organization db (done++[e]) k' s' := by
  obtain ⟨husers,hgroups,hplaces,horgs⟩ := hrow.tables
  -- another member has another address
  have hother : ∀ {b q},q.uuid≠m.uuid → At organization b s.toTables q → address settings e≠b := by
    rintro b q hne hq rfl
    exact hne (congrArg Membership.uuid (hq.unique hm))
  refine ⟨⟨hgroups.trans h.others.1,hplaces.trans h.others.2.1,horgs.trans h.others.2.2⟩,?_,?_,?_,?_,?_,?_,?_,?_⟩
  case refine_1 =>
    rw [husers]
    exact h.users
  case refine_2 =>
    rw [husers]
    intro u hu
    exact (h.created u hu).imp_right fun ⟨hvalid,d,hd,hnew⟩ => ⟨hvalid,d,List.mem_append_left _ hd,hnew⟩
  case refine_3 =>
    intro q hq
    obtain ⟨q₁,hq₁,halike₁,hsame⟩ := h.old q hq
    by_cases hkey : q₁.uuid=m.uuid
    · obtain rfl := eq_of_key s.member_nodup hq₁ hm.1 hkey
      refine ⟨m',(hrow.members m').mpr (.inl rfl),halike₁.trans halike,fun hnone => ?_⟩
      exact absurd (h.at_before hq halike₁ hm) (hnone e (List.mem_append_right _ List.mem_cons_self))
    · exact ⟨q₁,(hrow.members q₁).mpr (.inr ⟨hq₁,hkey⟩),halike₁,fun hnone =>
        hsame fun d hd => hnone d (List.mem_append_left _ hd)⟩
  case refine_4 =>
    intro q hq
    rcases (hrow.members q).mp hq with rfl|⟨hq,hkey⟩
    · refine (h.joined m hm.1).imp (fun ⟨q₁,hq₁,halike₁⟩ => ⟨q₁,hq₁,halike₁.trans halike⟩)
        fun ⟨d,hd,hlisted,hat,hnew⟩ => ?_
      rcases hrow.to halike hm.1 hat with ⟨-,hat'⟩|⟨hne,-⟩
      · exact ⟨d,List.mem_append_left _ hd,hlisted,hat',hnew⟩
      · exact absurd rfl hne
    · refine (h.joined q hq).imp_right fun ⟨d,hd,hlisted,hat,hnew⟩ => ?_
      rcases hrow.to halike hm.1 hat with ⟨rfl,-⟩|⟨-,hat'⟩
      · exact absurd rfl hkey
      · exact ⟨d,List.mem_append_left _ hd,hlisted,hat',hnew⟩
  case refine_5 =>
    intro q b hq
    rw [entriesFor_append]
    rcases hrow.at halike hm.1 hq with ⟨rfl,hat⟩|⟨hne,hat⟩
    · obtain ⟨x,hx,hold⟩ := h.ids m b hat
      rw [if_pos (hm.address_eq hat)]
      refine ⟨x,?_,fun q₁ hq₁ hkey => hold q₁ hq₁ (hkey.trans halike.uuid)⟩
      rw [setIds_append,← hx]
      exact hid
    · rw [if_neg (hother hne hat)]
      exact h.ids q b hat
  case refine_6 =>
    intro q b d hq hlast
    rw [entriesFor_append] at hlast
    rcases hrow.at halike hm.1 hq with ⟨rfl,hat⟩|⟨hne,hat⟩
    · obtain rfl := hm.address_eq hat
      rw [if_pos rfl,List.getLast?_concat] at hlast
      cases hlast
      exact hsettles
    · have hne' := hother hne hat
      rw [if_neg hne'] at hlast
      have hd := h.settled q b d hat hlast
      unfold Settles at hd ⊢
      rwa [hk b (Ne.symm hne')]
  case refine_7 =>
    intro d hd hlisted
    rcases List.mem_append.mp hd with hd|hd
    · obtain ⟨q,hq⟩ := h.present d hd hlisted
      rcases hrow.to halike hm.1 hq with ⟨-,hat⟩|⟨-,hat⟩
      · exact ⟨m',hat⟩
      · exact ⟨q,hat⟩
    · obtain rfl := List.mem_singleton.mp hd
      rcases hrow.to halike hm.1 hm with ⟨-,hat⟩|⟨hne,-⟩
      · exact ⟨m',hat⟩
      · exact absurd rfl hne
  case refine_8 =>
    intro q hq
    rcases (hrow.members q).mp hq with rfl|⟨hq,-⟩
    · exact hrange
    · exact h.ranged q hq

/-- An entry for somebody who has left the directory and is no member. -/
theorem Tracks.skips {k' : List Text} (h : Tracks settings organization db done k s) (hdeleted : e.deleted=true)
    (hnobody : ∀ q,¬At organization (address settings e) s.toTables q)
    (hk : ∀ b,b≠address settings e → (b∈k' ↔ b∈k)) : Tracks settings organization db (done++[e]) k' s := by
  have hother : ∀ {b q},At organization b s.toTables q → address settings e≠b := by
    rintro b q hq rfl
    exact hnobody q hq
  refine ⟨h.others,h.users,fun u hu => ?_,fun q hq => ?_,fun q hq => ?_,fun q b hq => ?_,fun q b d hq hlast => ?_,
    fun d hd hlisted => ?_,h.ranged⟩
  · exact (h.created u hu).imp_right fun ⟨hvalid,d,hd,hnew⟩ => ⟨hvalid,d,List.mem_append_left _ hd,hnew⟩
  · obtain ⟨q₁,hq₁,halike,hsame⟩ := h.old q hq
    exact ⟨q₁,hq₁,halike,fun hnone => hsame fun d hd => hnone d (List.mem_append_left _ hd)⟩
  · exact (h.joined q hq).imp_right fun ⟨d,hd,hnew⟩ => ⟨d,List.mem_append_left _ hd,hnew⟩
  · rw [entriesFor_append,if_neg (hother hq)]
    exact h.ids q b hq
  · rw [entriesFor_append,if_neg (hother hq)] at hlast
    have hd := h.settled q b d hq hlast
    unfold Settles at hd ⊢
    rwa [hk b (Ne.symm (hother hq))]
  · rcases List.mem_append.mp hd with hd|hd
    · exact h.present d hd hlisted
    · obtain rfl := List.mem_singleton.mp hd
      rw [hdeleted] at hlisted
      cases hlisted

/-- A row is added, for an account that is there or added too. -/
structure Joins (settings : Settings) (organization : Uuid) (a : Text) (m : Membership) (s s' : Database) : Prop where
  /-- Other tables. -/
  tables : s'.groups=s.groups ∧ s'.groupsUsers=s.groupsUsers ∧ s'.organizations=s.organizations
  /-- The account. -/
  users : ∃ u,u.uuid=m.userUuid ∧ u.email=a ∧ (u∈s.users ∨ settings.isValidEmail a=true) ∧
    ∀ v,v∈s'.users ↔ v=u ∨ v∈s.users
  /-- Memberships. -/
  members : ∀ q,q∈s'.members ↔ q=m ∨ q∈s.members
  /-- The row is new. -/
  fresh : ∀ q∈s.members,q.uuid≠m.uuid
  /-- It is one of the organisation. -/
  org : m.orgUuid=organization

/-- The members after such a step. -/
theorem Joins.at_iff (h : Joins settings organization a m s s') :
    At organization b s'.toTables q ↔ q=m ∧ b=a ∨ At organization b s.toTables q := by
  obtain ⟨u,huser,hemail,-,husers⟩ := h.users
  have hu : u∈s'.users := (husers u).mpr (.inl rfl)
  constructor
  · rintro ⟨hq,horg,v,hv,hvq,hvb⟩
    rcases (h.members q).mp hq with rfl|hq
    · have hsame : v=u := eq_of_key s'.user_nodup hv hu (hvq.trans huser.symm)
      subst hsame
      exact .inl ⟨rfl,hvb.symm.trans hemail⟩
    · obtain ⟨w,hw,hwq⟩ := user_of_member hq
      have hsame : w=v := eq_of_key s'.user_nodup ((husers w).mpr (.inr hw)) hv (hwq.trans hvq.symm)
      subst hsame
      exact .inr ⟨hq,horg,w,hw,hwq,hvb⟩
  · rintro (⟨rfl,rfl⟩|⟨hq,horg,v,hv,hvq,hvb⟩)
    · exact ⟨(h.members q).mpr (.inl rfl),h.org,u,hu,huser,hemail⟩
    · exact ⟨(h.members q).mpr (.inr hq),horg,v,(husers v).mpr (.inr hv),hvq,hvb⟩

/-- Somebody in the directory becomes a member. -/
theorem Tracks.joins {k' : List Text} (h : Tracks settings organization db done k s) (hlisted : e.deleted=false)
    (hnobody : ∀ q,¬At organization (address settings e) s.toTables q)
    (hrow : Joins settings organization (address settings e) m s s')
    (hid : m.externalId=if e.externalId=[] then none else some e.externalId) (hrange : InRange m)
    (hstatus : Invited≤ m.status) (hk : ∀ b,b≠address settings e → (b∈k' ↔ b∈k)) :
    Tracks settings organization db (done++[e]) k' s' := by
  obtain ⟨u,huser,hemail,hvalid,husers⟩ := hrow.users
  have hother : ∀ {b q},At organization b s.toTables q → address settings e≠b := by
    rintro b q hq rfl
    exact hnobody q hq
  -- nobody had the address before
  have hnew : ∀ q∈db.members,¬At organization (address settings e) db.toTables q := by
    intro q hq hat
    obtain ⟨q₁,hq₁,halike,-⟩ := h.old q hq
    exact hnobody q₁ (h.at_after hq₁ halike hat)
  have hat : At organization (address settings e) s'.toTables m := hrow.at_iff.mpr (.inl ⟨rfl,rfl⟩)
  refine ⟨⟨hrow.tables.1.trans h.others.1,hrow.tables.2.1.trans h.others.2.1,hrow.tables.2.2.trans h.others.2.2⟩,
    fun v hv => (husers v).mpr (.inr (h.users v hv)),fun v hv => ?_,fun q hq => ?_,fun q hq => ?_,fun q b hq => ?_,
    fun q b d hq hlast => ?_,fun d hd hd' => ?_,fun q hq => ?_⟩
  · have hold : v∈s.users → v∈db.users ∨ settings.isValidEmail v.email=true ∧ ∃ d∈done++[e],d.deleted=false ∧
        address settings d=v.email ∧ ∀ q∈db.members,¬At organization v.email db.toTables q := fun hv =>
      (h.created v hv).imp_right fun ⟨hvalid,d,hd,hnew⟩ => ⟨hvalid,d,List.mem_append_left _ hd,hnew⟩
    rcases (husers v).mp hv with rfl|hv
    · rcases hvalid with hu|hvalid
      · exact hold hu
      · rw [hemail]
        exact .inr ⟨hvalid,e,List.mem_append_right _ List.mem_cons_self,hlisted,rfl,hnew⟩
    · exact hold hv
  · obtain ⟨q₁,hq₁,halike,hsame⟩ := h.old q hq
    exact ⟨q₁,(hrow.members q₁).mpr (.inr hq₁),halike,fun hnone =>
      hsame fun d hd => hnone d (List.mem_append_left _ hd)⟩
  · rcases (hrow.members q).mp hq with rfl|hq
    · exact .inr ⟨e,List.mem_append_right _ List.mem_cons_self,hlisted,hat,hnew⟩
    · exact (h.joined q hq).imp_right fun ⟨d,hd,hlisted,hold,hnew⟩ =>
        ⟨d,List.mem_append_left _ hd,hlisted,hrow.at_iff.mpr (.inr hold),hnew⟩
  · rw [entriesFor_append]
    rcases hrow.at_iff.mp hq with ⟨rfl,rfl⟩|hq
    · rw [if_pos rfl]
      refine ⟨none,?_,fun q₁ hq₁ hkey => ?_⟩
      · have hset : setIds none (entriesFor settings done (address settings e))≠some [] := by
          intro hempty
          cases start_of_empty hempty
        rw [setIds_append,nextId_of_ne hset]
        exact hid
      · obtain ⟨q₂,hq₂,halike,-⟩ := h.old q₁ hq₁
        exact absurd (halike.uuid.trans hkey) (hrow.fresh q₂ hq₂)
    · rw [if_neg (hother hq)]
      exact h.ids q b hq
  · rw [entriesFor_append] at hlast
    rcases hrow.at_iff.mp hq with ⟨rfl,rfl⟩|hq
    · rw [if_pos rfl,List.getLast?_concat] at hlast
      cases hlast
      exact iff_of_true hstatus (.inl hlisted)
    · rw [if_neg (hother hq)] at hlast
      have hd := h.settled q b d hq hlast
      unfold Settles at hd ⊢
      rwa [hk b (Ne.symm (hother hq))]
  · rcases List.mem_append.mp hd with hd|hd
    · obtain ⟨q,hq⟩ := h.present d hd hd'
      exact ⟨q,hrow.at_iff.mpr (.inr hq)⟩
    · obtain rfl := List.mem_singleton.mp hd
      exact ⟨m,hat⟩
  · rcases (hrow.members q).mp hq with rfl|hq
    · exact hrange
    · exact h.ranged q hq

/-- No row of these tables is written. -/
def Keeps (s s' : Database) : Prop :=
  s'.members=s.members ∧ s'.groups=s.groups ∧ s'.groupsUsers=s.groupsUsers ∧ s'.organizations=s.organizations

theorem Tracks.keeps (h : Tracks settings organization db done k s) (hkeeps : Keeps s s') (husers : s'.users=s.users) :
    Tracks settings organization db done k s' := by
  obtain ⟨hmembers,hgroups,hplaces,horgs⟩ := hkeeps
  have hat : ∀ {a m},At organization a s'.toTables m ↔ At organization a s.toTables m := by
    intro a m
    unfold At
    rw [hmembers,husers]
  refine ⟨⟨hgroups.trans h.others.1,hplaces.trans h.others.2.1,horgs.trans h.others.2.2⟩,?_,?_,?_,?_,?_,?_,?_,?_⟩
  · rw [husers]
    exact h.users
  · rw [husers]
    exact h.created
  · rw [hmembers]
    exact h.old
  · rw [hmembers]
    exact fun q hq => (h.joined q hq).imp_right fun ⟨d,hd,hlisted,hold,hnew⟩ => ⟨d,hd,hlisted,hat.mpr hold,hnew⟩
  · exact fun m a hm => h.ids m a (hat.mp hm)
  · exact fun m a e hm => h.settled m a e (hat.mp hm)
  · exact fun e he hlisted => (h.present e he hlisted).imp fun m hm => hat.mpr hm
  · intro m hm
    exact h.ranged m (hmembers ▸ hm)

end Members

section Repetition

variable {settings : Settings} {organization : Uuid} {db s s' : Database} {a : Text} {m : Membership}
  {e : OrgImportUserData} {es : List OrgImportUserData} {k k' : List Text}

/-- The members are as an import with these entries leaves them. -/
structure Settled (settings : Settings) (organization : Uuid) (es : List OrgImportUserData) (k : List Text)
    (s : Database) : Prop where
  /-- Statuses, by the last entries. -/
  settled : ∀ m a e,At organization a s.toTables m → (entriesFor settings es a).getLast?=some e → Settles k a e m
  /-- Identifiers. -/
  ids : ∀ m a,At organization a s.toTables m → setIds m.externalId (entriesFor settings es a)=m.externalId
  /-- Everybody in the directory is a member. -/
  present : ∀ e∈es,e.deleted=false → ∃ m,At organization (address settings e) s.toTables m
  /-- Statuses. -/
  ranged : Ranged s

theorem Tracks.leaves (h : Tracks settings organization db es k s) : Settled settings organization es k s := by
  refine ⟨h.settled,fun m a hm => ?_,h.present,h.ranged⟩
  obtain ⟨x,hx,-⟩ := h.ids m a hm
  rw [hx,setIds_twice]

/-- An entry for an address. -/
theorem mem_entriesFor : e∈entriesFor settings es a ↔ e∈es ∧ address settings e=a := by
  unfold entriesFor
  rw [List.mem_filter,decide_eq_true_eq]

/-- A member with an entry has the identifier of one, or none. -/
theorem Settled.listed (h : Settled settings organization es k s) (he : e∈es)
    (hm : At organization (address settings e) s.toTables m) {x : Text} (hx : m.externalId=some x) :
    ∃ d∈es,d.externalId=x := by
  have hids := h.ids m _ hm
  have hmem : e∈entriesFor settings es (address settings e) := (mem_entriesFor).mpr ⟨he,rfl⟩
  have hsub : ∀ d∈entriesFor settings es (address settings e),d∈es := fun d hd => ((mem_entriesFor).mp hd).1
  generalize entriesFor settings es (address settings e)=l at hids hmem hsub
  rcases List.eq_nil_or_concat l with rfl|⟨l,d,rfl⟩
  · cases hmem
  rw [List.concat_eq_append] at hids hsub
  rw [setIds_append,hx] at hids
  refine ⟨d,hsub d (List.mem_append_right _ List.mem_cons_self),?_⟩
  unfold nextId at hids
  split at hids
  · rename_i hsame
    exact Option.some.inj (hsame.symm.trans hids)
  · split at hids
    · cases hids
    · exact Option.some.inj hids

/-- Members without an entry may go. -/
theorem Settled.without (h : Settled settings organization es k s) (husers : s'.users=s.users)
    (hsub : ∀ m∈s'.members,m∈s.members)
    (hstay : ∀ m∈s.members,∀ e∈es,At organization (address settings e) s.toTables m → m∈s'.members) :
    Settled settings organization es k s' := by
  have hat : ∀ {m a},At organization a s'.toTables m → At organization a s.toTables m := by
    rintro m a ⟨hm,hrest⟩
    rw [husers] at hrest
    exact ⟨hsub m hm,hrest⟩
  refine ⟨fun m a e hm => h.settled m a e (hat hm),fun m a hm => h.ids m a (hat hm),fun e he hlisted => ?_,
    fun m hm => h.ranged m (hsub m hm)⟩
  obtain ⟨m,hm⟩ := h.present e he hlisted
  have hrest := hm.2
  rw [← husers] at hrest
  exact ⟨m,hstay m hm.1 e he hm,hrest⟩

/-- The same entries once more leave every member as he is. -/
theorem Settled.stays (h : Settled settings organization es k s) (h' : Tracks settings organization s es k' s')
    (hk : ∀ a,a∈k ↔ a∈k') (hm : m∈s.members) : m∈s'.members := by
  obtain ⟨q,hq,halike,hsame⟩ := h'.old m hm
  by_cases hnone : ∀ e∈es,¬At organization (address settings e) s.toTables m
  · rwa [← hsame hnone]
  push Not at hnone
  obtain ⟨e,he,hat⟩ := hnone
  have hat' := h'.at_after hq halike hat
  -- the last entry for his address
  obtain ⟨d,hlast⟩ : ∃ d,(entriesFor settings es (address settings e)).getLast?=some d := by
    cases hlast : (entriesFor settings es (address settings e)).getLast? with
    | some d => exact ⟨d,rfl⟩
    | none =>
      have hmem : e∈entriesFor settings es (address settings e) := (mem_entriesFor).mpr ⟨he,rfl⟩
      rw [List.getLast?_eq_none_iff.mp hlast] at hmem
      cases hmem
  have hbefore := h.settled m _ d hat hlast
  have hafter := h'.settled q _ d hat' hlast
  unfold Settles at hbefore hafter
  have hstatus : q.status=m.status := by
    refine halike.status_eq (h.ranged m hm) (hafter.trans ?_)
    rw [hbefore,hk]
  have hid : q.externalId=m.externalId := by
    obtain ⟨x,hx,hold⟩ := h'.ids q _ hat'
    rw [hx,hold m hm halike.uuid.symm]
    exact h.ids m _ hat
  rwa [← halike.eq hstatus hid]

/-- And adds nobody. -/
theorem Settled.again (h : Settled settings organization es k s) (h' : Tracks settings organization s es k' s')
    (hk : ∀ a,a∈k ↔ a∈k') : (∀ u,u∈s'.users ↔ u∈s.users) ∧ ∀ m,m∈s'.members ↔ m∈s.members := by
  refine ⟨fun u => ⟨fun hu => ?_,h'.users u⟩,fun m => ⟨fun hm => ?_,h.stays h' hk⟩⟩
  · refine (h'.created u hu).resolve_right fun ⟨_,e,he,hlisted,hemail,hnew⟩ => ?_
    obtain ⟨m,hm⟩ := h.present e he hlisted
    rw [hemail] at hm
    exact hnew m hm.1 hm
  · rcases h'.joined m hm with ⟨q,hq,halike⟩|⟨e,he,hlisted,-,hnew⟩
    · have hsame : q=m := eq_of_key s'.member_nodup (h.stays h' hk hq) hm halike.uuid.symm
      rwa [← hsame]
    · obtain ⟨q,hq⟩ := h.present e he hlisted
      exact absurd hq (hnew q hq.1)

/-- The same entries are accepted. -/
theorem Tracks.accepts_eq (h : Tracks settings organization db es k s) (e : OrgImportUserData) :
    accepts settings s.toTables e=accepts settings db.toTables e := by
  unfold accepts
  rw [Bool.eq_iff_iff]
  simp only [Bool.or_eq_true,List.any_eq_true,decide_eq_true_eq]
  refine ⟨fun hall => ?_,fun hall => ?_⟩
  · rcases hall with (hdeleted|⟨u,hu,hemail⟩)|hvalid
    · exact .inl (.inl hdeleted)
    · rcases h.created u hu with hold|⟨hvalid,-⟩
      · exact .inl (.inr ⟨u,hold,hemail⟩)
      · rw [hemail] at hvalid
        exact .inr hvalid
    · exact .inr hvalid
  · rcases hall with (hdeleted|⟨u,hu,hemail⟩)|hvalid
    · exact .inl (.inl hdeleted)
    · exact .inl (.inr ⟨u,h.users u hu,hemail⟩)
    · exact .inr hvalid

/-- A member without an entry was there before. -/
theorem Tracks.old_of_none (h : Tracks settings organization db es k s) (hm : m∈s.members)
    (hnone : ∀ e∈es,¬At organization (address settings e) s.toTables m) : m∈db.members := by
  rcases h.joined m hm with ⟨q,hq,halike⟩|⟨e,he,-,hat,-⟩
  · obtain ⟨q',hq',halike',hsame⟩ := h.old q hq
    have hrow : q'=m := eq_of_key s.member_nodup hq' hm (halike'.uuid.trans halike.uuid.symm)
    subst hrow
    have huntouched : q'=q := hsame fun e he hat => hnone e he (h.at_after hm halike' hat)
    rwa [huntouched]
  · exact absurd hat (hnone e he)

end Repetition

end NadSafe.ImportTracks
