import NadSafe.RowDeletes

/-!
# What a failed invitation deletes

`send_invite` deletes the account of a failed mail if it has created one, but
it remembers that for all later addresses. So an account that was there before
goes exactly if an earlier address of the request was new, its own mail fails,
and it is no last owner.
-/

namespace NadSafe.InviteCleanup

open HostText TableRows AsyncScript ServerTables AccessQueries StoreScript ServerModels OrgHandlers
open PlannedScript TableWrites RowImages AccessEdits RowDeletes
open MemberWrites (orgMember ends_orgMember)

/-- An account is there, with all its rows. -/
structure Whole (u : User) (db db' : Database) : Prop where
  /-- The account. -/
  account : u∈db'.users
  /-- Its ciphers. -/
  ciphers : ∀ c∈db.ciphers,c.userUuid=some u.uuid → c∈db'.ciphers
  /-- Its folders. -/
  folders : ∀ f∈db.folders,f.userUuid=u.uuid → f∈db'.folders
  /-- Its sends. -/
  sends : ∀ s∈db.sends,s.userUuid=some u.uuid → s∈db'.sends
  /-- Its memberships. -/
  members : ∀ m∈db.members,m.userUuid=u.uuid → m∈db'.members

/-- All accounts are. -/
def Kept (db db' : Database) : Prop := ∀ u∈db.users,Whole u db db'

section Conditions

variable (settings : Settings) (out : Outside) (t : Tables) (org : Uuid)

/-- The account of an address. -/
def account (email : Text) : Option User := t.users.find? fun u => u.email=settings.toLowercase email

/-- The address has no account. -/
def newcomer (email : Text) : Bool := (account settings t email).isNone

/-- The account is a member. -/
def isMember (user : Uuid) : Bool := t.members.any fun m => m.userUuid=user ∧ m.orgUuid=org

/-- The address may be invited. -/
def invitable (email : Text) : Bool :=
  match account settings t email with
  | some u => !isMember t org u.uuid
  | none => settings.invitationsAllowed && settings.isEmailDomainAllowed email &&
    settings.isValidEmail (settings.toLowercase email)

/-- The account has ciphers, folders, sends or memberships. -/
def hasRows (user : Uuid) : Bool :=
  t.ciphers.any (fun c => c.userUuid=some user) || t.folders.any (fun f => f.userUuid=user) ||
    t.sends.any (fun s => s.userUuid=some user) || t.members.any fun m => m.userUuid=user

/-- A grant of the account in another organisation, which it is no member of. -/
def strayOutside (user : Uuid) : Bool :=
  t.usersCollections.any fun r => r.userUuid=user ∧ knownCollection t org r.collectionUuid=false ∧
    ∀ m∈t.members,m.userUuid=user → knownCollection t m.orgUuid r.collectionUuid=false

/-- A delete of the account takes it, or rows of it. -/
def falls (user : Uuid) : Bool := !lastOwner t user && (!strayOutside t org user || hasRows t user)

/-- The mail to an account that is no member fails. -/
def hits (email : Text) : Bool :=
  (account settings t email).any (fun u => !isMember t org u.uuid && falls t org u.uuid) &&
    !out.delivers (settings.toLowercase email)

/-- An account falls that was there before the request: the mails before its
own go out, and one of them is to a newcomer. The addresses in `before` have
been dealt with. -/
def StruckFrom (before emails : List Text) : Prop :=
  settings.mailEnabled=true ∧ ∃ mid email after,emails=mid++email::after ∧
    ((before++mid++[email]).map settings.toLowercase).Nodup ∧
    (∀ x∈mid,invitable settings t org x=true ∧ out.delivers (settings.toLowercase x)=true) ∧
    (∃ x∈before++mid,newcomer settings t x=true) ∧ hits settings out t org email=true

end Conditions

section Addresses

variable {settings : Settings} {out : Outside} {t : Tables} {org : Uuid} {before emails : List Text} {x : Text}

/-- One address at a time. -/
theorem struckFrom_cons : StruckFrom settings out t org before (x::emails) ↔
    settings.mailEnabled=true ∧ ((before++[x]).map settings.toLowercase).Nodup ∧
      ((hits settings out t org x=true ∧ ∃ y∈before,newcomer settings t y=true) ∨
        invitable settings t org x=true ∧ out.delivers (settings.toLowercase x)=true ∧
          StruckFrom settings out t org (before++[x]) emails) := by
  unfold StruckFrom
  constructor
  · rintro ⟨hmail,mid,email,after,heq,hdistinct,hmid,hnew,hhits⟩
    refine ⟨hmail,?_⟩
    cases mid with
    | nil =>
      cases heq
      rw [List.append_nil] at hdistinct hnew
      exact ⟨hdistinct,.inl ⟨hhits,hnew⟩⟩
    | cons y mid =>
      cases heq
      have hsplit : before++x::mid=before++[x]++mid := by simp
      rw [hsplit] at hdistinct hnew
      obtain ⟨hinvitable,hdelivers⟩ := hmid x List.mem_cons_self
      refine ⟨?_,.inr ⟨hinvitable,hdelivers,hmail,mid,email,after,rfl,hdistinct,
        fun y hy => hmid y (List.mem_cons_of_mem x hy),hnew,hhits⟩⟩
      refine hdistinct.sublist (List.Sublist.map _ ?_)
      rw [List.append_assoc]
      exact List.sublist_append_left _ _
  · rintro ⟨hmail,hdistinct,⟨hhits,hnew⟩|⟨hinvitable,hdelivers,-,mid,email,after,rfl,hdistinct',hmid,hnew,hhits⟩⟩
    · refine ⟨hmail,[],x,emails,rfl,?_,nofun,?_,hhits⟩
      · rwa [List.append_nil]
      · rwa [List.append_nil]
    · have hsplit : before++x::mid=before++[x]++mid := by simp
      refine ⟨hmail,x::mid,email,after,rfl,?_,fun y hy => ?_,?_,hhits⟩
      · rwa [hsplit]
      · rcases List.mem_cons.mp hy with rfl|hy
        · exact ⟨hinvitable,hdelivers⟩
        · exact hmid y hy
      · rwa [hsplit]

end Addresses

section Progress

variable {settings : Settings} {org : Uuid} {db s s' : Database} {before : List Text} {x : Text}

/-- The addresses in `before` have joined, and nothing is gone. -/
structure Reached (settings : Settings) (org : Uuid) (db : Database) (before : List Text) (s : Database) : Prop where
  /-- Other tables. -/
  others : ∃ users members grants places invitations n,s.toTables={db.toTables with
    users := users
    members := members
    usersCollections := grants
    groupsUsers := places
    invitations := invitations
    next := n}
  /-- New accounts have keys of their own and new addresses. -/
  users : ∃ news,s.users=db.users++news ∧ ∀ v∈news,(∀ w∈db.users,w.uuid≠v.uuid) ∧
    ∃ y∈before,v.email=settings.toLowercase y
  /-- New memberships are of these addresses, and not confirmed. -/
  members : ∃ news,s.members=db.members++news ∧ ∀ m∈news,m.orgUuid=org ∧ m.status≠Confirmed ∧
    ∃ v∈s.users,v.uuid=m.userUuid ∧ ∃ y∈before,v.email=settings.toLowercase y
  /-- All of the addresses are members. -/
  joined : ∀ y∈before,∃ v∈s.users,v.email=settings.toLowercase y ∧ isMember s.toTables org v.uuid=true
  /-- The grants of other accounts are the same. -/
  grants : ∀ v∈s.users,(∀ y∈before,v.email≠settings.toLowercase y) → ∀ r,r.userUuid=v.uuid →
    (r∈s.usersCollections ↔ r∈db.usersCollections)

theorem Reached.start : Reached settings org db [] db where
  others := ⟨db.users,db.members,db.usersCollections,db.groupsUsers,db.invitations,db.next,rfl⟩
  users := ⟨[],(List.append_nil _).symm,fun _ hv => absurd hv List.not_mem_nil⟩
  members := ⟨[],(List.append_nil _).symm,fun _ hm => absurd hm List.not_mem_nil⟩
  joined _ hy := absurd hy List.not_mem_nil
  grants _ _ _ _ _ := Iff.rfl

theorem Reached.old_user (h : Reached settings org db before s) {u : User} (hu : u∈db.users) : u∈s.users := by
  obtain ⟨news,heq,-⟩ := h.users
  rw [heq]
  exact List.mem_append_left _ hu

theorem Reached.old_member (h : Reached settings org db before s) {m : Membership} (hm : m∈db.members) :
    m∈s.members := by
  obtain ⟨news,heq,-⟩ := h.members
  rw [heq]
  exact List.mem_append_left _ hm

/-- Rows that are only added leave the accounts whole. -/
theorem Reached.kept (h : Reached settings org db before s) : Kept db s := by
  intro u hu
  obtain ⟨users,members,grants,places,invitations,n,htables⟩ := h.others
  refine ⟨h.old_user hu,fun c hc _ => ?_,fun f hf _ => ?_,fun q hq _ => ?_,fun m hm _ => h.old_member hm⟩
  all_goals rw [htables]
  · exact hc
  · exact hf
  · exact hq

/-- An address that has not been dealt with has the same account as before. -/
theorem Reached.account (h : Reached settings org db before s)
    (hnew : ∀ y∈before,settings.toLowercase x≠settings.toLowercase y) :
    account settings s.toTables x=account settings db.toTables x := by
  obtain ⟨news,heq,hnews⟩ := h.users
  unfold InviteCleanup.account
  rw [heq,List.find?_append]
  have hnone : (news.find? fun u => u.email=settings.toLowercase x)=none := by
    refine List.find?_eq_none.mpr fun v hv hemail => ?_
    obtain ⟨-,y,hy,hvy⟩ := hnews v hv
    exact hnew y hy ((of_decide_eq_true hemail).symm.trans hvy)
  rw [hnone,Option.or_none]

/-- And is a member of the same organisations. -/
theorem Reached.isMember (h : Reached settings org db before s) {u : User} (hu : u∈s.users)
    (hnew : ∀ y∈before,u.email≠settings.toLowercase y) (k : Uuid) :
    isMember s.toTables k u.uuid=isMember db.toTables k u.uuid := by
  obtain ⟨news,heq,hnews⟩ := h.members
  unfold InviteCleanup.isMember
  rw [heq,List.any_append]
  have hnone : (news.any fun m => m.userUuid=u.uuid ∧ m.orgUuid=k)=false := by
    refine List.any_eq_false.mpr fun m hm hrow => ?_
    obtain ⟨-,-,v,hv,hkey,y,hy,hvy⟩ := hnews m hm
    cases eq_of_key s.user_nodup hv hu (hkey.trans (of_decide_eq_true hrow).1)
    exact hnew y hy hvy
  rw [hnone,Bool.or_false]

/-- An address that has been dealt with has an account that is a member. -/
theorem Reached.again (h : Reached settings org db before s) {y : Text} (hy : y∈before)
    (heq : settings.toLowercase x=settings.toLowercase y) :
    ∃ v∈s.users,InviteCleanup.account settings s.toTables x=some v ∧
      InviteCleanup.isMember s.toTables org v.uuid=true := by
  obtain ⟨v,hv,hemail,hmember⟩ := h.joined y hy
  refine ⟨v,hv,?_,hmember⟩
  unfold InviteCleanup.account
  rw [heq,← hemail]
  exact find?_key s.email_nodup hv

/-- The next address joins. -/
theorem Reached.join {user : User} {m : Membership} (h : Reached settings org db before s)
    (hothers : ∃ users members invitations n,s'.toTables={s.toTables with
      users := users
      members := members
      invitations := invitations
      next := n})
    (husers : s'.users=s.users ∧ user∈s.users ∨ s'.users=s.users++[user] ∧ ∀ w∈s.users,w.uuid≠user.uuid)
    (hemail : user.email=settings.toLowercase x) (hmembers : s'.members=s.members++[m])
    (hrow : m.userUuid=user.uuid ∧ m.orgUuid=org ∧ m.status≠Confirmed) :
    Reached settings org db (before++[x]) s' := by
  have hin : user∈s'.users := by
    rcases husers with ⟨heq,hu⟩|⟨heq,-⟩
    · rwa [heq]
    · rw [heq]
      exact List.mem_append_right _ (List.mem_singleton.mpr rfl)
  have hold : ∀ v∈s.users,v∈s'.users := by
    intro v hv
    rcases husers with ⟨heq,-⟩|⟨heq,-⟩
    · rwa [heq]
    · rw [heq]
      exact List.mem_append_left _ hv
  have hx : x∈before++[x] := List.mem_append_right _ (List.mem_singleton.mpr rfl)
  obtain ⟨users,members,invitations,n,htables'⟩ := hothers
  refine ⟨?_,?_,?_,?_,?_⟩
  · obtain ⟨_,_,grants,places,_,_,htables⟩ := h.others
    exact ⟨users,members,grants,places,invitations,n,by rw [htables',htables]⟩
  · obtain ⟨news,heq,hnews⟩ := h.users
    have hnews' : ∀ v∈news,(∀ w∈db.users,w.uuid≠v.uuid) ∧ ∃ y∈before++[x],v.email=settings.toLowercase y := by
      intro v hv
      obtain ⟨hkey,y,hy,hvy⟩ := hnews v hv
      exact ⟨hkey,y,List.mem_append_left _ hy,hvy⟩
    rcases husers with ⟨heq',-⟩|⟨heq',hfresh⟩
    · exact ⟨news,heq'.trans heq,hnews'⟩
    · refine ⟨news++[user],by rw [heq',heq,List.append_assoc],fun v hv => ?_⟩
      rcases List.mem_append.mp hv with hv|hv
      · exact hnews' v hv
      · cases List.mem_singleton.mp hv
        exact ⟨fun w hw => hfresh w (h.old_user hw),x,hx,hemail⟩
  · obtain ⟨news,heq,hnews⟩ := h.members
    refine ⟨news++[m],by rw [hmembers,heq,List.append_assoc],fun q hq => ?_⟩
    rcases List.mem_append.mp hq with hq|hq
    · obtain ⟨horg,hstatus,v,hv,hkey,y,hy,hvy⟩ := hnews q hq
      exact ⟨horg,hstatus,v,hold v hv,hkey,y,List.mem_append_left _ hy,hvy⟩
    · cases List.mem_singleton.mp hq
      exact ⟨hrow.2.1,hrow.2.2,user,hin,hrow.1.symm,x,hx,hemail⟩
  · intro y hy
    rcases List.mem_append.mp hy with hy|hy
    · obtain ⟨v,hv,hvy,hmember⟩ := h.joined y hy
      refine ⟨v,hold v hv,hvy,?_⟩
      unfold InviteCleanup.isMember at hmember ⊢
      rw [hmembers,List.any_append,hmember,Bool.true_or]
    · cases List.mem_singleton.mp hy
      refine ⟨user,hin,hemail,?_⟩
      unfold InviteCleanup.isMember
      rw [hmembers,List.any_append]
      simp [hrow.1,hrow.2.1]
  · intro v hv hother r hr
    have hgrants : s'.usersCollections=s.usersCollections := by rw [htables']
    rw [hgrants]
    refine h.grants v ?_ (fun y hy => hother y (List.mem_append_left _ hy)) r hr
    rcases husers with ⟨heq,-⟩|⟨heq,-⟩
    · rwa [heq] at hv
    · rw [heq] at hv
      rcases List.mem_append.mp hv with hv|hv
      · exact hv
      · cases List.mem_singleton.mp hv
        exact absurd hemail (hother x hx)

/-- Grants and places for the address that has joined last. -/
theorem Reached.supply {user : User} (h : Reached settings org db (before++[x]) s) (hu : user∈s.users)
    (hemail : user.email=settings.toLowercase x)
    (htables : ∃ grants places,s'.toTables={s.toTables with
      usersCollections := grants
      groupsUsers := places} ∧ ∀ r,r.userUuid≠user.uuid → (r∈grants ↔ r∈s.usersCollections)) :
    Reached settings org db (before++[x]) s' := by
  obtain ⟨grants,places,htables,hgrants⟩ := htables
  obtain ⟨users,members,_,_,invitations,n,hothers⟩ := h.others
  have husers : s'.users=s.users := by rw [htables]
  have hmembers : s'.members=s.members := by rw [htables]
  refine ⟨⟨users,members,grants,places,invitations,n,by rw [htables,hothers]⟩,?_,?_,?_,?_⟩
  · rw [husers]
    exact h.users
  · rw [husers,hmembers]
    exact h.members
  · intro y hy
    obtain ⟨v,hv,hvy,hmember⟩ := h.joined y hy
    unfold InviteCleanup.isMember at hmember
    exact ⟨v,husers ▸ hv,hvy,by unfold InviteCleanup.isMember; rw [hmembers]; exact hmember⟩
  · intro v hv hother r hr
    have hv : v∈s.users := husers ▸ hv
    rw [show s'.usersCollections=grants by rw [htables]]
    refine (hgrants r fun heq => ?_).trans (h.grants v hv hother r hr)
    cases eq_of_key s.user_nodup hv hu (hr.symm.trans heq)
    exact hother x (List.mem_append_right _ (List.mem_singleton.mpr rfl)) hemail

/-- Nobody has become or ceased to be a last owner. -/
theorem Reached.lastOwner (h : Reached settings org db before s) (user : Uuid) :
    lastOwner s.toTables user=lastOwner db.toTables user := by
  obtain ⟨news,heq,hnews⟩ := h.members
  have hconfirmed : ∀ p : Membership → Bool,(∀ m,p m=true → m.status=Confirmed) → news.filter p=[] := by
    intro p hp
    exact List.filter_eq_nil_iff.mpr fun m hm hpm => (hnews m hm).2.1 (hp m hpm)
  have hcount : ∀ k,Membership.confirmedByOrgAndType s.toTables k .owner=
      Membership.confirmedByOrgAndType db.toTables k .owner := by
    intro k
    unfold Membership.confirmedByOrgAndType
    rw [heq,List.filter_append,hconfirmed _ (fun m hm => (of_decide_eq_true hm).2.2),List.append_nil]
  unfold RowDeletes.lastOwner Membership.findConfirmedByUser
  rw [heq,List.filter_append,hconfirmed _ (fun m hm => (of_decide_eq_true hm).2),List.append_nil]
  simp only [hcount]

/-- The grants in the way of a delete, once the account has joined. -/
theorem Reached.strayGrant {user : User} {m : Membership} (h : Reached settings org db before s) (hu : user∈s.users)
    (hnew : ∀ y∈before,user.email≠settings.toLowercase y)
    (hsame : s'.usersCollections=s.usersCollections ∧ s'.collections=s.collections)
    (hmembers : s'.members=s.members++[m]) (hrow : m.userUuid=user.uuid ∧ m.orgUuid=org) :
    strayGrant s'.toTables user.uuid=strayOutside db.toTables org user.uuid := by
  obtain ⟨news,heq,hnews⟩ := h.members
  have hcollections : s'.collections=db.collections := by
    obtain ⟨users,members,grants,places,invitations,n,htables⟩ := h.others
    rw [hsame.2,htables]
  have hknown : ∀ k r,knownCollection s'.toTables k r=knownCollection db.toTables k r := by
    intro k r
    unfold knownCollection
    rw [hcollections]
  have hothers : ∀ q∈news,q.userUuid≠user.uuid := by
    intro q hq hquser
    obtain ⟨-,-,v,hv,hkey,y,hy,hvy⟩ := hnews q hq
    cases eq_of_key s.user_nodup hv hu (hkey.trans hquser)
    exact hnew y hy hvy
  rw [Bool.eq_iff_iff]
  unfold RowDeletes.strayGrant strayOutside
  rw [List.any_eq_true,List.any_eq_true]
  refine exists_congr fun r => ?_
  rw [hsame.1,decide_eq_true_eq,decide_eq_true_eq]
  simp only [hknown]
  constructor
  · rintro ⟨hr,huser,hall⟩
    refine ⟨(h.grants user hu hnew r huser).mp hr,huser,?_,fun q hq hquser => hall q ?_ hquser⟩
    · rw [← hrow.2]
      refine hall m ?_ hrow.1
      rw [hmembers]
      exact List.mem_append_right _ (List.mem_singleton.mpr rfl)
    · rw [hmembers]
      exact List.mem_append_left _ (h.old_member hq)
  · rintro ⟨hr,huser,hout,hall⟩
    refine ⟨(h.grants user hu hnew r huser).mpr hr,huser,fun q hq hquser => ?_⟩
    rw [hmembers,heq] at hq
    rcases List.mem_append.mp hq with hq|hq
    · rcases List.mem_append.mp hq with hq|hq
      · exact hall q hq hquser
      · exact absurd hquser (hothers q hq)
    · cases List.mem_singleton.mp hq
      rw [hrow.2]
      exact hout

end Progress

section Deletes

variable {settings : Settings} {org : Uuid} {db s s' : Database} {before : List Text} {user : User}

theorem kept_trans (h : Kept db s) (hrest : ∀ u∈db.users,Whole u s s') : Kept db s' := by
  intro u hu
  have hfirst := h u hu
  have hnext := hrest u hu
  exact ⟨hnext.account,fun c hc howner => hnext.ciphers c (hfirst.ciphers c hc howner) howner,
    fun f hf howner => hnext.folders f (hfirst.folders f hf howner) howner,
    fun q hq howner => hnext.sends q (hfirst.sends q hq howner) howner,
    fun m hm howner => hnext.members m (hfirst.members m hm howner) howner⟩

/-- Another account is whole after a delete. -/
theorem whole_of_erased {u : User} (h : Erased user.uuid s s') (hu : u∈s.users) (hne : u.uuid≠user.uuid) :
    Whole u s s' where
  account := (h.users u).mpr ⟨hu,fun heq => absurd heq hne⟩
  ciphers c hc howner := (h.ciphers c).mpr ⟨hc,fun heq => hne (Option.some.inj (howner.symm.trans heq))⟩
  folders f hf howner := (h.folders f).mpr ⟨hf,fun heq => hne (howner.symm.trans heq)⟩
  sends q hq howner := (h.sends q).mpr ⟨hq,fun heq => hne (Option.some.inj (howner.symm.trans heq))⟩
  members m hm howner := (h.members m).mpr ⟨hm,fun heq => hne (howner.symm.trans heq)⟩

/-- The delete of a new account keeps the others. -/
theorem ends_deleteNew (h : Kept db s) (hold : ∀ u∈db.users,u∈s.users) (hfresh : ∀ u∈db.users,u.uuid≠user.uuid) :
    Ends (User.delete settings user) s fun _ s' => Kept db s' := by
  refine ends_eraseUser.mono fun r s' hends => ?_
  split at hends
  · obtain ⟨-,rfl⟩ := hends
    exact h
  · exact kept_trans h fun u hu => whole_of_erased hends (hold u hu) (hfresh u hu)

/-- The rows of an account that falls go, and no others. -/
theorem ends_deleteOld (h : Reached settings org db before s) (hu : user∈db.users)
    (hstray : strayGrant s.toTables user.uuid=strayOutside db.toTables org user.uuid) :
    Ends (User.delete settings user) s fun _ s' => Kept db s' ↔ falls db.toTables org user.uuid=false := by
  have hlast := h.lastOwner user.uuid
  refine ends_eraseUser.mono fun r s' hends => ?_
  unfold falls
  rw [hlast] at hends
  split at hends
  · rename_i howner
    obtain ⟨-,rfl⟩ := hends
    rw [howner]
    exact iff_of_true h.kept rfl
  rename_i howner
  rw [Bool.not_eq_true] at howner
  rw [howner,Bool.not_false,Bool.true_and,Bool.or_eq_false_iff,Bool.not_eq_false']
  unfold hasRows
  simp only [Bool.or_eq_false_iff,List.any_eq_false,decide_eq_true_eq]
  constructor
  · intro hkept
    have hwhole := hkept user hu
    refine ⟨?_,⟨⟨fun c hc howner => ?_,fun f hf howner => ?_⟩,fun q hq howner => ?_⟩,fun m hm howner => ?_⟩
    · rw [← hstray]
      exact ((hends.users user).mp hwhole.account).2 rfl
    · exact ((hends.ciphers c).mp (hwhole.ciphers c hc howner)).2 howner
    · exact ((hends.folders f).mp (hwhole.folders f hf howner)).2 howner
    · exact ((hends.sends q).mp (hwhole.sends q hq howner)).2 howner
    · exact ((hends.members m).mp (hwhole.members m hm howner)).2 howner
  · rintro ⟨hgrant,⟨⟨hciphers,hfolders⟩,hsends⟩,hmembers⟩ u huu
    by_cases heq : u.uuid=user.uuid
    · cases eq_of_key db.user_nodup huu hu heq
      refine ⟨(hends.users user).mpr ⟨h.old_user huu,fun _ => hstray.trans hgrant⟩,fun c hc howner => ?_,
        fun f hf howner => ?_,fun q hq howner => ?_,fun m hm howner => ?_⟩
      · exact absurd howner (hciphers c hc)
      · exact absurd howner (hfolders f hf)
      · exact absurd howner (hsends q hq)
      · exact absurd howner (hmembers m hm)
    · have hrest := whole_of_erased hends (h.old_user huu) heq
      have hfirst := h.kept u huu
      exact ⟨hrest.account,fun c hc howner => hrest.ciphers c (hfirst.ciphers c hc howner) howner,
        fun f hf howner => hrest.folders f (hfirst.folders f hf howner) howner,
        fun q hq howner => hrest.sends q (hfirst.sends q hq howner) howner,
        fun m hm howner => hrest.members m (hfirst.members m hm howner) howner⟩

/-- The delete of a new membership keeps the accounts whole. -/
theorem ends_deleteJoined {m : Membership} (h : Kept db s) (hfresh : ∀ q∈db.members,q.uuid≠m.uuid) :
    Ends (Membership.delete m) s fun _ s' => Kept db s' := by
  refine ends_removeMember.mono fun r s' ⟨_,hremoved⟩ u hu => ?_
  obtain ⟨members,grants,places,htables⟩ := hremoved.tables
  have hwhole := h u hu
  refine ⟨?_,fun c hc howner => ?_,fun f hf howner => ?_,fun q hq howner => ?_,fun q hq howner => ?_⟩
  · rw [htables]
    exact hwhole.account
  · rw [htables]
    exact hwhole.ciphers c hc howner
  · rw [htables]
    exact hwhole.folders f hf howner
  · rw [htables]
    exact hwhole.sends q hq howner
  · exact (hremoved.members q).mpr ⟨hwhole.members q hq howner,hfresh q hq⟩

end Deletes

section Steps

variable {settings : Settings} {out : Outside} {org : Uuid} {db s : Database} {before : List Text} {x : Text}
  {created : Bool}

/-- The address has not been dealt with. -/
def Distinct (settings : Settings) (before : List Text) (x : Text) : Prop :=
  ∀ y∈before,settings.toLowercase x≠settings.toLowercase y

theorem isMember_iff {t : Tables} {user : Uuid} :
    (t.members.find? fun m => m.userUuid=user ∧ m.orgUuid=org).isNone=!isMember t org user := by
  unfold isMember
  rw [Bool.eq_iff_iff]
  simp [List.find?_eq_none]

theorem account_some {t : Tables} {u : User} (h : account settings t x=some u) :
    u∈t.users ∧ u.email=settings.toLowercase x := by
  unfold account at h
  have hemail := List.find?_some h
  exact ⟨List.mem_of_find?_eq_some h,of_decide_eq_true hemail⟩

/-- The account of an address that has joined. -/
structure Entered (settings : Settings) (db s s₁ : Database) (x : Text) (user : User) : Prop where
  /-- Other tables. -/
  others : ∃ users invitations n,s₁.toTables={s.toTables with
    users := users
    invitations := invitations
    next := n}
  /-- Its address. -/
  email : user.email=settings.toLowercase x
  /-- It was there, or it is new. -/
  origin : s₁.users=s.users ∧ account settings db.toTables x=some user ∨
    s₁.users=s.users++[user] ∧ account settings db.toTables x=none ∧ ∀ w∈s.users,w.uuid≠user.uuid

/-- An account for an address that has none. -/
theorem ends_createAccount (hnone : account settings s.toTables x=none) : Ends (do
    inviteByTable settings x
    let uuid ← getUuid
    let stamp ← getUuid
    let user := User.new uuid stamp out.randomBytes settings.passwordIterations (settings.toLowercase x) none
    User.save settings user
    pure (user,Invited,true)) s fun r s₁ => if settings.isValidEmail (settings.toLowercase x)=true then
      ∃ user,r=.ok (user,Invited,true) ∧ user.email=settings.toLowercase x ∧ s₁.users=s.users++[user] ∧
        (∀ w∈s.users,w.uuid≠user.uuid) ∧ ∃ users invitations n,s₁.toTables={s.toTables with
          users := users
          invitations := invitations
          next := n}
    else (∃ e,r=.error e) ∧ ∃ n,s₁.toTables={s.toTables with next := n} := by
  cases hvalid : settings.isValidEmail (settings.toLowercase x) with
  | false =>
    have htable : Ends (inviteByTable settings x) s fun _ s₁ => s₁=s := by
      unfold inviteByTable Invitation.save
      dsimp only
      rw [hvalid]
      split
      · exact Ends.pure rfl
      · exact Ends.throw rfl
    refine htable.bind (fun _ s₁ hs₁ => ?_) fun e s₁ hs₁ => ⟨⟨e,rfl⟩,s.next,by rw [hs₁]⟩
    subst hs₁
    refine Ends.draw (Ends.draw ?_)
    dsimp only
    have hthrow : Ends (User.save settings (User.new s₁.next s₁.drawn.next out.randomBytes
        settings.passwordIterations (settings.toLowercase x) none)) s₁.drawn.drawn fun r s₂ => s₂=s₁.drawn.drawn ∧
          ∃ e,r=.error e := by
      unfold User.save
      rw [show (User.new s₁.next s₁.drawn.next out.randomBytes settings.passwordIterations
        (settings.toLowercase x) none).email=settings.toLowercase x from rfl,hvalid]
      exact Ends.throw ⟨rfl,_,rfl⟩
    refine hthrow.bind ?_ ?_
    · rintro _ _ ⟨-,_,he⟩
      cases he
    · rintro e s₂ ⟨hs₂,-⟩
      refine ⟨⟨e,rfl⟩,s₁.next+2,?_⟩
      rw [hs₂]
      rfl
  | true =>
    have htable : Ends (inviteByTable settings x) s fun r s₁ => r=.ok () ∧
        ∃ invitations,s₁.toTables={s.toTables with invitations := invitations} := by
      unfold inviteByTable Invitation.save
      dsimp only
      rw [hvalid,if_pos rfl]
      split
      · exact Ends.pure ⟨rfl,s.invitations,rfl⟩
      · exact ends_update_done s.valid ⟨rfl,_,rfl⟩
    refine htable.bind ?_ ?_
    swap
    · rintro e _ ⟨he,-⟩
      cases he
    rintro _ s₁ ⟨-,invitations,htables⟩
    have husers : s₁.users=s.users := by rw [htables]
    have hnext : s₁.next=s.next := by rw [htables]
    have hfresh : ∀ w∈s.users,w.uuid≠s₁.next := fun w hw => hnext ▸ (s.valid.2.2.1 w hw).ne
    refine Ends.draw (Ends.draw ?_)
    dsimp only
    have hsaved : Ends (User.save settings (User.new s₁.next s₁.drawn.next out.randomBytes
        settings.passwordIterations (settings.toLowercase x) none)) s₁.drawn.drawn fun r s₂ => r=.ok () ∧
          s₂.toTables={s₁.drawn.drawn.toTables with users := put User.uuid (User.new s₁.next s₁.drawn.next
            out.randomBytes settings.passwordIterations (settings.toLowercase x) none) s₁.users} := by
      unfold User.save
      rw [show (User.new s₁.next s₁.drawn.next out.randomBytes settings.passwordIterations
        (settings.toLowercase x) none).email=settings.toLowercase x from rfl,hvalid,if_pos rfl]
      refine ends_update_done (valid_user s₁.drawn.drawn.valid ?_ fun q hq hemail => ?_) ⟨rfl,rfl⟩
      · exact Nat.lt_succ_of_lt (Nat.lt_succ_self s₁.next)
      · have hq : q∈s.users := husers ▸ hq
        exact absurd (decide_eq_true hemail) (List.find?_eq_none.mp hnone q hq)
    refine hsaved.bind ?_ ?_
    swap
    · rintro e _ ⟨he,-⟩
      cases he
    rintro _ s₂ ⟨-,htables₂⟩
    refine Ends.pure ⟨_,rfl,rfl,?_,hfresh,s₂.users,invitations,s₁.next+2,?_⟩
    · rw [htables₂]
      show put User.uuid _ s₁.users=_
      rw [husers]
      exact put_fresh hfresh
    · rw [htables₂]
      have hdrawn : s₁.drawn.drawn.toTables={s.toTables with
          invitations := invitations
          next := s₁.next+2} := by
        show {s₁.toTables with next := s₁.next+2}=_
        rw [htables]
      rw [hdrawn]

/-- An address is invited, or nothing is written. -/
theorem ends_invite (h : Reached settings org db before s) :
    Ends (invitedUser settings out org created x) s fun r s₁ =>
      (Distinct settings before x ∧ invitable settings db.toTables org x=true ∧ ∃ user status,
        r=.ok (user,status,created || newcomer settings db.toTables x) ∧ status≠Confirmed ∧
        Entered settings db s s₁ x user) ∨
      ¬(Distinct settings before x ∧ invitable settings db.toTables org x=true) ∧ (∃ e,r=.error e) ∧
        ∃ n,s₁.toTables={s.toTables with next := n} := by
  by_cases hdistinct : Distinct settings before x
  swap
  · unfold Distinct at hdistinct
    push Not at hdistinct
    obtain ⟨y,hy,heq⟩ := hdistinct
    obtain ⟨v,hv,haccount,hmember⟩ := h.again hy heq
    unfold invitedUser
    refine ends_lookup ?_
    rw [show s.users.find? (fun u => u.email=settings.toLowercase x)=some v from haccount]
    refine ends_lookup (Ends.ensure (fun hnone => ?_) fun _ => .inr ⟨fun hd => hd.1 y hy heq,⟨_,rfl⟩,_,rfl⟩)
    rw [isMember_iff,hmember] at hnone
    cases hnone
  have haccount := h.account hdistinct
  unfold invitedUser
  refine ends_lookup ?_
  rw [show s.users.find? (fun u => u.email=settings.toLowercase x)=account settings db.toTables x from haccount]
  unfold invitable newcomer
  cases hfound : account settings db.toTables x with
  | some u =>
    obtain ⟨hold,hemail⟩ := account_some hfound
    have hmem : u∈s.users := h.old_user hold
    have hsame := h.isMember hmem (hemail ▸ hdistinct) org
    refine ends_lookup (Ends.ensure (fun hnone => ?_) fun hsome => .inr ⟨fun hd => ?_,⟨_,rfl⟩,_,rfl⟩)
    · rw [isMember_iff,hsame] at hnone
      refine Ends.pure (.inl ⟨hdistinct,hnone,u,
        if settings.mailEnabled=false ∧ u.passwordHash≠[] then Accepted else Invited,?_,?_,
        ⟨s.users,s.invitations,s.next,rfl⟩,hemail,.inl ⟨rfl,hfound⟩⟩)
      · rw [Option.isNone_some,Bool.or_false]
      · split <;> decide
    · rw [isMember_iff,hsame] at hsome
      exact Bool.false_ne_true (hsome.symm.trans hd.2)
  | none =>
    refine Ends.ensure (fun hallowed => Ends.ensure (fun hdomain => ?_) fun hno => ?_) fun hno => ?_
    · rw [hallowed,hdomain,Bool.true_and,Bool.true_and]
      refine (ends_createAccount (haccount.trans hfound)).mono fun r s₁ hends => ?_
      split at hends
      · rename_i hvalid
        obtain ⟨user,hr,hemail,husers,hfresh,hothers⟩ := hends
        refine .inl ⟨hdistinct,hvalid,user,Invited,?_,by decide,hothers,hemail,.inr ⟨husers,hfound,hfresh⟩⟩
        rw [hr,Option.isNone_none,Bool.or_true]
      · rename_i hinvalid
        exact .inr ⟨fun h => hinvalid h.2,hends⟩
    · refine .inr ⟨fun h => ?_,⟨_,rfl⟩,_,rfl⟩
      rw [hno,Bool.and_false,Bool.false_and] at h
      exact Bool.false_ne_true h.2
    · refine .inr ⟨fun h => ?_,⟨_,rfl⟩,_,rfl⟩
      rw [hno,Bool.false_and,Bool.false_and] at h
      exact Bool.false_ne_true h.2

/-- An account that is hit may be invited. -/
theorem invitable_of_hits {t : Tables} (h : hits settings out t org x=true) : invitable settings t org x=true := by
  unfold hits at h
  unfold invitable
  rw [Bool.and_eq_true,Option.any_eq_true] at h
  obtain ⟨⟨u,hu,hrow⟩,-⟩ := h
  rw [hu]
  rw [Bool.and_eq_true] at hrow
  exact hrow.1

theorem distinct_iff (h : (before.map settings.toLowercase).Nodup) :
    ((before++[x]).map settings.toLowercase).Nodup ↔ Distinct settings before x := by
  rw [List.map_append,List.nodup_append]
  refine ⟨fun hall y hy heq => ?_,fun hdistinct => ⟨h,by simp,?_⟩⟩
  · exact hall.2.2 _ (List.mem_map.mpr ⟨y,hy,rfl⟩) _ (List.mem_singleton.mpr rfl) heq.symm
  · intro a ha b hb heq
    obtain ⟨y,hy,rfl⟩ := List.mem_map.mp ha
    cases List.mem_singleton.mp hb
    exact hdistinct y hy heq.symm

/-- The grants and the places of an address that has joined. -/
theorem ends_supply {user : User} {member : Uuid} {accessAll : Bool} {collections : List CollectionData}
    {groups : List Uuid} {g : Unit → Action Unit} {P : Except String Unit → Database → Prop}
    (h : Reached settings org db (before++[x]) s) (hu : user∈s.users) (hemail : user.email=settings.toLowercase x)
    (hm : ∃ q∈s.members,q.uuid=member) (hcollections : ∀ col∈collections,knownCollection db.toTables org col.id=true)
    (hgroups : ∀ k∈groups,knownGroup db.toTables k=true)
    (hnext : ∀ s',Reached settings org db (before++[x]) s' → Ends (g ()) s' P) :
    Ends ((grantMember accessAll org user.uuid collections).bind fun _ =>
      (each groups fun group => GroupUser.save ⟨group,member⟩).bind g) s P := by
  obtain ⟨users,members,grants,places,invitations,n,hothers⟩ := h.others
  have hcols : s.collections=db.collections := by rw [hothers]
  have hgrps : s.groups=db.groups := by rw [hothers]
  have hknown : ∀ col∈if accessAll=true then [] else collections,knownCollection s.toTables org col.id=true := by
    intro col hcol
    unfold knownCollection
    rw [hcols]
    refine hcollections col ?_
    split at hcol
    · exact absurd hcol List.not_mem_nil
    · exact hcol
  have hplaces : ∀ k∈groups,knownGroup s.toTables k=true := by
    intro k hk
    unfold knownGroup
    rw [hgrps]
    exact hgroups k hk
  refine (ends_grantMember ⟨user,hu,rfl⟩).bind (fun _ s₁ ⟨htables,_⟩ => ?_) fun e s₁ ⟨_,hr⟩ => nomatch hr.mpr hknown
  have hm₁ : ∃ q∈s₁.members,q.uuid=member := by
    rw [htables]
    exact hm
  have hplaces₁ : ∀ k∈groups,knownGroup s₁.toTables k=true := by
    rw [htables]
    exact hplaces
  refine (ends_joinGroups hm₁).bind (fun _ s₂ ⟨htables₂,_⟩ => ?_) fun e s₂ ⟨_,hr⟩ => nomatch hr.mpr hplaces₁
  refine hnext s₂ (h.supply hu hemail ⟨_,_,by rw [htables₂,htables],fun r hr => ?_⟩)
  rw [mem_puts]
  have hasked : ∀ q∈askedRows user.uuid ((if accessAll=true then [] else collections).takeWhile fun col =>
      knownCollection s.toTables org col.id),q.userUuid=user.uuid := by
    intro q hq
    obtain ⟨col,-,rfl⟩ := List.mem_map.mp hq
    rfl
  constructor
  · rintro (hnew|⟨hold,-⟩)
    · exact absurd (hasked r (mem_of_puts hnew)) hr
    · exact hold
  · intro hold
    refine .inr ⟨hold,fun q hq hkey => hr ?_⟩
    exact (congrArg Prod.fst hkey).symm.trans (hasked q hq)

/-- A mail goes out, or something is deleted. -/
theorem ends_mail {user : User} {m : Membership} {g : Unit → Action Unit} {P : Except String Unit → Database → Prop}
    (horg : ∃ o∈s.organizations,o.uuid=m.orgUuid)
    (hsent : (settings.mailEnabled=true → out.delivers user.email=true) → Ends (g ()) s P)
    (hfailed : settings.mailEnabled=true → out.delivers user.email=false →
      Ends (if created=true then User.delete settings user else Membership.delete m) s
        fun _ s' => ∀ e,P (.error e) s') :
    Ends ((mailInvite settings out created user m).bind g) s P := by
  unfold mailInvite
  by_cases hmail : settings.mailEnabled=true
  · rw [if_pos hmail]
    simp only [Script.bind_eq,Script.bind_assoc]
    obtain ⟨o,ho,hkey⟩ := horg
    refine ends_lookup (Ends.expect (fun _ _ => ?_) fun hnone => ?_)
    · cases hdelivers : out.delivers user.email with
      | true =>
        rw [if_pos rfl]
        exact hsent fun _ => hdelivers
      | false =>
        have hdeleted := hfailed hmail hdelivers
        rw [if_neg Bool.false_ne_true]
        cases created with
        | true =>
          rw [if_pos rfl] at hdeleted ⊢
          rw [Script.bind_assoc]
          exact hdeleted.bind (fun _ s' h => h _) fun e s' h => h e
        | false =>
          rw [if_neg Bool.false_ne_true] at hdeleted ⊢
          rw [Script.bind_assoc]
          exact hdeleted.bind (fun _ s' h => h _) fun e s' h => h e
    · exact absurd (decide_eq_true hkey) (List.find?_eq_none.mp hnone o ho)
  · rw [if_neg hmail]
    exact hsent fun h => absurd h hmail

/-- The loop over the addresses, exactly. -/
theorem ends_inviteAll {inviter : Text} {role : MembershipType} {accessAll : Bool} {data : MemberData}
    {emails : List Text} (horg : ∃ o∈db.organizations,o.uuid=org)
    (hcollections : ∀ col∈data.collections,knownCollection db.toTables org col.id=true)
    (hgroups : ∀ k∈data.groups,knownGroup db.toTables k=true) (h : Reached settings org db before s)
    (hbefore : (before.map settings.toLowercase).Nodup) :
    Ends (inviteAll settings out org inviter role accessAll data (before.any (newcomer settings db.toTables)) emails) s
      fun _ s' => Kept db s' ↔ ¬StruckFrom settings out db.toTables org before emails := by
  induction emails generalizing before s with
  | nil =>
    refine Ends.pure (iff_of_true h.kept ?_)
    rintro ⟨-,mid,email,after,heq,-⟩
    cases mid <;> cases heq
  | cons x emails ih =>
    rw [inviteAll,struckFrom_cons,distinct_iff hbefore]
    refine (ends_invite h).bind ?_ fun e s₁ hends => ?_
    swap
    · rcases hends with ⟨-,-,_,_,he,-⟩|⟨hnot,-,n,htables⟩
      · cases he
      refine iff_of_true (kept_trans h.kept fun u hu => ?_) ?_
      · refine ⟨?_,fun c hc _ => ?_,fun f hf _ => ?_,fun q hq _ => ?_,fun m hm _ => ?_⟩
        all_goals rw [htables]
        · exact h.old_user hu
        · exact hc
        · exact hf
        · exact hq
        · exact hm
      · rintro ⟨-,hdistinct,hrest⟩
        exact hnot ⟨hdistinct,hrest.elim (fun h => invitable_of_hits h.1) And.left⟩
    rintro ⟨user,status,created⟩ s₁ hends
    rcases hends with ⟨hdistinct,hinvitable,user',status',heq,hstatus,hentered⟩|⟨-,⟨e,he⟩,-⟩
    swap
    · cases he
    cases heq
    have hcreated : (before.any (newcomer settings db.toTables) || newcomer settings db.toTables x)=
        (before++[x]).any (newcomer settings db.toTables) := by
      rw [List.any_append,List.any_cons,List.any_nil,Bool.or_false]
    obtain ⟨users,invitations,n,hothers⟩ := hentered.others
    have hmembers₁ : s₁.members=s.members := by rw [hothers]
    have hfresh : ∀ q∈s.members,q.uuid≠s₁.next := fun q hq => (s₁.valid.2.2.2.2.1 q (hmembers₁ ▸ hq)).ne
    have hin : user∈s₁.users := by
      rcases hentered.origin with ⟨husers,hfound⟩|⟨husers,-⟩
      · rw [husers]
        exact h.old_user (account_some hfound).1
      · rw [husers]
        exact List.mem_append_right _ (List.mem_singleton.mpr rfl)
    have halone : ∀ q∈s.members,¬(q.userUuid=user.uuid ∧ q.orgUuid=org) := by
      intro q hq hpair
      rcases hentered.origin with ⟨-,hfound⟩|⟨-,-,hnew⟩
      · obtain ⟨hold,hemail⟩ := account_some hfound
        have hsame := h.isMember (h.old_user hold) (hemail ▸ hdistinct) org
        have hmember : isMember s.toTables org user.uuid=true := List.any_eq_true.mpr ⟨q,hq,decide_eq_true hpair⟩
        unfold invitable at hinvitable
        rw [hfound] at hinvitable
        dsimp only at hinvitable
        rw [← hsame,hmember] at hinvitable
        cases hinvitable
      · obtain ⟨w,hw,hkey⟩ := s.valid.2.1.1 q hq
        exact hnew w hw (hkey.trans hpair.1)
    have horg₁ : ∃ o∈s₁.organizations,o.uuid=org := by
      obtain ⟨_,_,_,_,_,_,hrest⟩ := h.others
      rw [hothers,hrest]
      exact horg
    refine Ends.draw (ends_update_to (valid_member s₁.drawn.valid (Nat.lt_succ_self s₁.next) ⟨user,hin,rfl⟩ horg₁
      fun q hq hpair => ?_) fun s₂ htables₂ => ?_)
    · have hq : q∈s.members := hmembers₁ ▸ hq
      exact absurd (Prod.mk.inj hpair) (halone q hq)
    have hmembers₂ : s₂.members=s.members++[{Membership.new s₁.next user.uuid org (some inviter) with
        accessAll := accessAll
        atype := role
        status := status}] := by
      rw [htables₂]
      show put Membership.uuid _ s₁.members=_
      rw [hmembers₁]
      exact put_fresh hfresh
    have husers₂ : s₂.users=s₁.users := by rw [htables₂]; rfl
    have hrow : ∃ users members invitations n,s₂.toTables={s.toTables with
        users := users
        members := members
        invitations := invitations
        next := n} := by
      refine ⟨users,s₂.members,invitations,s₁.next+1,?_⟩
      rw [htables₂]
      have hdrawn : s₁.drawn.toTables={s.toTables with
          users := users
          invitations := invitations
          next := s₁.next+1} := by
        show {s₁.toTables with next := s₁.next+1}=_
        rw [hothers]
      rw [hdrawn]
    have h₂ : Reached settings org db (before++[x]) s₂ := by
      refine h.join hrow ?_ hentered.email hmembers₂ ⟨rfl,rfl,hstatus⟩
      rw [husers₂]
      rcases hentered.origin with ⟨husers,hfound⟩|⟨husers,-,hnew⟩
      · exact .inl ⟨husers,h.old_user (account_some hfound).1⟩
      · exact .inr ⟨husers,hnew⟩
    have horg₂ : ∃ o∈s₂.organizations,o.uuid=org := by
      obtain ⟨_,_,_,_,hrest⟩ := hrow
      obtain ⟨_,_,_,_,_,_,hrest'⟩ := h.others
      rw [hrest,hrest']
      exact horg
    have hin₂ : user∈s₂.users := husers₂ ▸ hin
    have hm₂ : ∃ q∈s₂.members,q.uuid=s₁.next := by
      rw [hmembers₂]
      exact ⟨_,List.mem_append_right _ (List.mem_singleton.mpr rfl),rfl⟩
    refine ends_mail horg₂ (fun hsent => ?_) fun hmail hlost => ?_
    · refine ends_supply h₂ hin₂ hentered.email hm₂ hcollections hgroups fun s₃ h₃ => ?_
      rw [hcreated]
      refine (ih h₃ ((distinct_iff hbefore).mpr hdistinct)).mono fun r s' hrest => hrest.trans (not_congr ?_)
      constructor
      · intro hstruck
        have hdelivers := hsent hstruck.1
        rw [hentered.email] at hdelivers
        exact ⟨hstruck.1,hdistinct,.inr ⟨hinvitable,hdelivers,hstruck⟩⟩
      · rintro ⟨hmail,-,⟨hhits,-⟩|⟨-,-,hstruck⟩⟩
        · have hdelivers := hsent hmail
          rw [hentered.email] at hdelivers
          unfold hits at hhits
          rw [hdelivers,Bool.not_true,Bool.and_false] at hhits
          cases hhits
        · exact hstruck
    · rw [hentered.email] at hlost
      have hstruck : (settings.mailEnabled=true ∧ Distinct settings before x ∧
          ((hits settings out db.toTables org x=true ∧ ∃ y∈before,newcomer settings db.toTables y=true) ∨
            invitable settings db.toTables org x=true ∧ out.delivers (settings.toLowercase x)=true ∧
              StruckFrom settings out db.toTables org (before++[x]) emails)) ↔
          hits settings out db.toTables org x=true ∧ before.any (newcomer settings db.toTables)=true := by
        rw [List.any_eq_true]
        constructor
        · rintro ⟨-,-,hhits|⟨-,hdelivers,-⟩⟩
          · exact hhits
          · rw [hlost] at hdelivers
            cases hdelivers
        · exact fun hhits => ⟨hmail,hdistinct,.inl hhits⟩
      rw [hstruck]
      rcases hentered.origin with ⟨husers,hfound⟩|⟨husers,hnone,hnew⟩
      · obtain ⟨hold,hemail⟩ := account_some hfound
        have hnot : newcomer settings db.toTables x=false := by
          unfold newcomer
          rw [hfound]
          rfl
        have hhits : hits settings out db.toTables org x=falls db.toTables org user.uuid := by
          unfold invitable at hinvitable
          unfold hits
          rw [hfound] at hinvitable ⊢
          dsimp only at hinvitable
          rw [Option.any_some,hinvitable,hlost,Bool.true_and,Bool.not_false,Bool.and_true]
        rw [hnot,Bool.or_false,hhits]
        cases hcreated' : before.any (newcomer settings db.toTables) with
        | true =>
          rw [if_pos rfl]
          have hstray : strayGrant s₂.toTables user.uuid=strayOutside db.toTables org user.uuid := by
            obtain ⟨_,_,_,_,hrest⟩ := hrow
            refine h.strayGrant (h.old_user hold) (hemail ▸ hdistinct) ⟨?_,?_⟩ hmembers₂ ⟨rfl,rfl⟩
            all_goals rw [hrest]
          refine (ends_deleteOld h₂ hold hstray).mono fun r s' hends e => hends.trans ?_
          rw [and_iff_left rfl,Bool.not_eq_true]
        | false =>
          rw [if_neg Bool.false_ne_true]
          exact (ends_deleteJoined h₂.kept fun q hq => hfresh q (h.old_member hq)).mono fun r s' hkept e =>
            iff_of_true hkept fun hstruck => Bool.false_ne_true hstruck.2
      · have hhits : hits settings out db.toTables org x=false := by
          unfold hits
          rw [hnone]
          rfl
        have hnewcomer : newcomer settings db.toTables x=true := by
          unfold newcomer
          rw [hnone]
          rfl
        rw [hnewcomer,Bool.or_true,if_pos rfl]
        refine (ends_deleteNew h₂.kept (fun u hu => h₂.old_user hu) fun u hu => hnew u (h.old_user hu)).mono
          fun r s' hkept e => iff_of_true hkept fun hstruck => ?_
        exact Bool.false_ne_true (hhits.symm.trans hstruck.1)

end Steps

section Requests

variable {settings : Settings} {out : Outside} {db : Database} {caller org : Uuid} {emails : List Text}
  {data : MemberData}

/-- The request passes its checks, and the loop starts. -/
def admitted (t : Tables) (caller org : Uuid) (data : MemberData) : Bool :=
  (orgMember t caller org).any fun m => decide (m.status=Confirmed ∧ MembershipType.admin≤ m.atype) &&
    data.collections.all (fun k => knownCollection t org k.id) &&
    data.groups.all (fun g => t.groups.any fun q => q.uuid=g ∧ q.organizationsUuid=org) &&
    (MembershipType.fromStr data.type).any fun newType => decide ¬(newType≠.user ∧ m.atype≠.owner)

theorem ends_validate : Ends (data.validate org) db fun r db' => db'=db ∧
    if (data.collections.all (fun k => knownCollection db.toTables org k.id) &&
      data.groups.all (fun g => db.groups.any fun q => q.uuid=g ∧ q.organizationsUuid=org))=true then r=.ok ()
    else ∃ e,r=.error e := by
  have hcollections : data.collections.all (fun k => decide (k.id∈(db.collections.filter fun k => k.orgUuid=org).map
      ServerTables.Collection.uuid))=data.collections.all fun k => knownCollection db.toTables org k.id := by
    congr 1
    funext k
    rw [Bool.eq_iff_iff,decide_eq_true_eq,knownCollection_iff,List.mem_map]
    simp only [List.mem_filter,decide_eq_true_eq]
    exact exists_congr fun q => ⟨fun ⟨⟨hq,horg⟩,hkey⟩ => ⟨hq,hkey,horg⟩,fun ⟨hq,hkey,horg⟩ => ⟨⟨hq,horg⟩,hkey⟩⟩
  have hgroups : data.groups.all (fun g => decide (g∈(db.groups.filter fun q => q.organizationsUuid=org).map
      ServerTables.Group.uuid))=data.groups.all fun g => db.groups.any fun q => q.uuid=g ∧ q.organizationsUuid=org := by
    congr 1
    funext g
    rw [Bool.eq_iff_iff,decide_eq_true_eq,List.mem_map,List.any_eq_true]
    simp only [List.mem_filter,decide_eq_true_eq]
    exact exists_congr fun q => ⟨fun ⟨⟨hq,horg⟩,hkey⟩ => ⟨hq,hkey,horg⟩,fun ⟨hq,hkey,horg⟩ => ⟨⟨hq,horg⟩,hkey⟩⟩
  unfold MemberData.validate
  refine ends_lookup (Ends.ensure (fun hknown => ?_) fun hunknown => ?_)
  · rw [hcollections] at hknown
    rw [hknown,Bool.true_and]
    refine ends_lookup (Ends.ensure_done (fun hplaces => ?_) fun hplaces => ?_)
    · rw [hgroups] at hplaces
      rw [hplaces]
      exact ⟨rfl,rfl⟩
    · rw [hgroups] at hplaces
      rw [hplaces]
      exact ⟨rfl,_,rfl⟩
  · rw [hcollections] at hunknown
    rw [hunknown,Bool.false_and]
    exact ⟨rfl,_,rfl⟩

/-- The invitation, exactly. -/
theorem ends_sendInvite : Ends (sendInvite settings out caller org emails data) db fun _ db' =>
    Kept db db' ↔ ¬(admitted db.toTables caller org data=true ∧
      StruckFrom settings out db.toTables org [] emails) := by
  have hrefused : admitted db.toTables caller org data=false → (Kept db db ↔ ¬(admitted db.toTables caller org data=true ∧
      StruckFrom settings out db.toTables org [] emails)) := by
    intro hno
    have hstart : Reached settings org db [] db := .start
    exact iff_of_true hstart.kept fun h => Bool.false_ne_true (hno.symm.trans h.1)
  unfold sendInvite adminHeaders
  simp only [Script.bind_eq,Script.bind_assoc]
  refine ends_orgMember.bind (fun h s ⟨hs,hguard⟩ => ?_) fun e s ⟨hs,hguard⟩ => ?_
  · subst hs
    split at hguard
    swap
    · obtain ⟨e,he,-⟩ := hguard
      cases he
    rename_i m hm
    obtain ⟨⟨u,hu,hkey,hok⟩,hmem,horg⟩ := hguard
    cases hok
    unfold admitted at hrefused ⊢
    rw [hm,Option.any_some] at hrefused ⊢
    refine Ends.ensure (fun hrole => ?_) fun hrole => hrefused (by rw [hrole,Bool.false_and,Bool.false_and,Bool.false_and])
    rw [hrole,Bool.true_and] at hrefused ⊢
    refine (ends_validate).bind (fun _ s₁ ⟨hs₁,hvalid⟩ => ?_) fun e s₁ ⟨hs₁,hvalid⟩ => ?_
    · subst hs₁
      split at hvalid
      swap
      · obtain ⟨e,he⟩ := hvalid
        cases he
      rename_i hknown
      rw [hknown,Bool.true_and] at hrefused ⊢
      refine Ends.expect (fun role hfound => ?_) fun hnone => hrefused (by rw [hnone]; rfl)
      rw [hfound,Option.any_some] at hrefused ⊢
      refine Ends.ensure (fun howner => ?_) fun hno => hrefused hno
      rw [howner]
      rw [Bool.and_eq_true,List.all_eq_true,List.all_eq_true] at hknown
      have hgroups : ∀ k∈data.groups,knownGroup s₁.toTables k=true := by
        intro k hk
        obtain ⟨q,hq,hcols⟩ := List.any_eq_true.mp (hknown.2 k hk)
        exact knownGroup_iff.mpr ⟨q,hq,(of_decide_eq_true hcols).1⟩
      have horganization : ∃ o∈s₁.organizations,o.uuid=org := by
        obtain ⟨o,ho,hokey⟩ := s₁.valid.2.1.2.1 m hmem
        exact ⟨o,ho,hokey.trans horg⟩
      refine (ends_inviteAll horganization hknown.1 hgroups .start List.nodup_nil).mono fun r s' hends => hends.trans ?_
      rw [and_iff_right rfl]
    · subst hs₁
      split at hvalid
      · cases hvalid
      rename_i hunknown
      rw [Bool.not_eq_true] at hunknown
      exact hrefused (by rw [hunknown,Bool.false_and])
  · subst hs
    split at hguard
    · obtain ⟨⟨_,_,_,hok⟩,_⟩ := hguard
      cases hok
    rename_i hm
    refine hrefused ?_
    unfold admitted
    rw [hm]
    rfl

/-- Exactly when an invitation leaves all old accounts whole. -/
theorem accounts_kept_iff : Kept db (complete (sendInvite settings out caller org emails data) db).2 ↔
    ¬(admitted db.toTables caller org data=true ∧ StruckFrom settings out db.toTables org [] emails) :=
  ends_sendInvite

end Requests

section Samples

/-- Settings with mail. -/
def mailing : Settings where
  orgGroupsEnabled := false
  mailEnabled := true
  invitationsAllowed := true
  isEmailDomainAllowed _ := true
  isOrgCreationAllowed _ := true
  email2faAutoFallback := false
  isValidEmail _ := true
  toLowercase email := email
  passwordIterations := 600000

/-- The first account owns the organisation, the second one has a cipher of its
own. -/
def office : Database := ⟨{Tables.none with
  users := [User.new 1 0 [] 600000 ['a'] none,User.new 2 0 [] 600000 ['b'] none]
  organizations := [⟨3⟩]
  members := [{ServerTables.Membership.new 4 1 3 none with
    atype := .owner
    status := Confirmed}]
  ciphers := [{ServerTables.Cipher.new 5 0 1 ['c'] with userUuid := some 2}]
  next := 6},by decide⟩

/-- The mail to a new account goes out, the next one fails, and the account that
it was meant for is gone with its cipher. -/
theorem vault_erased :
    (complete (sendInvite mailing ⟨fun email => decide (email≠['b']),[]⟩ 1 3 [['d'],['b']] ⟨[],"User",[],[]⟩)
      office).2.ciphers=[] ∧
    ¬Kept office
      (complete (sendInvite mailing ⟨fun email => decide (email≠['b']),[]⟩ 1 3 [['d'],['b']] ⟨[],"User",[],[]⟩) office).2 := by
  have hgone : ∀ u∈(complete (sendInvite mailing ⟨fun email => decide (email≠['b']),[]⟩ 1 3 [['d'],['b']]
      ⟨[],"User",[],[]⟩) office).2.users,u≠User.new 2 0 [] 600000 ['b'] none := by decide
  refine ⟨by decide,fun h => ?_⟩
  exact hgone _ (h _ (List.mem_cons_of_mem _ List.mem_cons_self)).account rfl

end Samples

end NadSafe.InviteCleanup
