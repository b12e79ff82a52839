import NadSafe.ImportTracks
import NadSafe.RowDeletes

/-!
# The entries of an import, run alone

Each entry is accepted, and then it does what the history of the import says,
or it is refused and the import ends.
-/

namespace NadSafe.ImportEntries

open HostText TableRows AsyncScript AsyncScript.Script ServerTables AccessQueries StoreScript ServerModels
open OrgHandlers DirectoryImport SequentialScript PlannedScript TableWrites FactorRows MemberWrites ImportWrites
open ImportTracks

section Runs

variable {settings : Settings} {out : Outside} {organization : Uuid} {orgEmail : Text} {db s s' : Database}
  {m m' : Membership} {e : OrgImportUserData} {done : List OrgImportUserData} {k : List Text}

/-- The row of a member is saved again. -/
theorem ends_save (hm : m∈s.members) (halike : Alike m m') :
    Ends (Membership.save m') s fun r s' => r=.ok () ∧ Replaces m m' s s' := by
  have hsame : SameMember m m' := ⟨halike.uuid,halike.user,halike.org⟩
  have hdone : Ends (Membership.save m') s fun r _ => r=.ok () := AccessEdits.ends_saveEdited hm hsame rfl rfl rfl rfl
  have htables : Ends (Membership.save m') s fun r s' => r=.ok () → Replaces m m' s s' := by
    refine ends_update_end (fun s' htables _ => ⟨?_,fun q => ?_⟩) fun he => ?_
    · rw [htables]
      exact ⟨rfl,rfl,rfl,rfl⟩
    · rw [htables,← hsame.uuid]
      exact mem_put
    · cases he
  exact (hdone.and htables).mono fun r s' ⟨hr,h⟩ => ⟨hr,h hr⟩

/-- Or it is left as it is. -/
theorem ends_saveChanged {changed : Bool} (hm : m∈s.members) (halike : Alike m m') (hsame : changed=false → m'=m) :
    Ends (saveChanged m' changed) s fun r s' => r=.ok () ∧ Replaces m m' s s' := by
  unfold saveChanged
  split
  · exact ends_save hm halike
  · rename_i hchanged
    rw [Bool.not_eq_true] at hchanged
    rw [hsame hchanged]
    exact Ends.pure ⟨rfl,.refl hm⟩

theorem ends_mayGo : Ends (mayGo organization m) s fun r s' =>
    s'=s ∧ r=.ok (!lastConfirmedOwner organization s.toTables m) := by
  unfold mayGo lastConfirmedOwner
  split
  · rename_i howner
    refine ends_lookup ⟨rfl,?_⟩
    rw [← decide_not]
    simp only [howner.1,howner.2,true_and,not_le]
    rfl
  · rename_i howner
    refine ⟨rfl,?_⟩
    have hnot : ¬(m.atype=.owner ∧ m.status=Confirmed ∧
        (Membership.confirmedByOrgAndType s.toTables organization .owner).length≤1) := fun h => howner ⟨h.1,h.2.1⟩
    rw [decide_eq_false hnot]
    rfl

/-- An identifier that is not changed. -/
theorem setExternalId_unchanged {x : Text} (h : (setExternalId m x).2=false) : (setExternalId m x).1=m := by
  unfold setExternalId at h ⊢
  split
  · rfl
  · rename_i hother
    rw [if_neg hother] at h
    cases h

theorem externalId_revoke (m : Membership) : m.revoke.externalId=m.externalId := by
  unfold ServerTables.Membership.revoke
  split <;> rfl

theorem externalId_restore (m : Membership) : m.restore.externalId=m.externalId := by
  unfold ServerTables.Membership.restore
  split <;> rfl

/-- A member that left the directory. -/
theorem ends_revokeListed (hm : m∈s.members) (hrange : InRange m) : Ends (revokeListed organization e m) s fun r s' =>
    r=.ok () ∧ ∃ m',Replaces m m' s s' ∧ Alike m m' ∧ m'.externalId=nextId m.externalId e ∧ InRange m' ∧
      (Invited≤ m'.status ↔ lastConfirmedOwner organization s.toTables m=true) := by
  unfold revokeListed
  refine (ends_mayGo).bind (fun may s₁ ⟨hs,hmay⟩ => ?_) fun e s₁ ⟨_,he⟩ => by cases he
  subst hs
  cases hmay
  generalize hlast : lastConfirmedOwner organization s₁.toTables m=last
  -- the row before its identifier is set
  obtain ⟨revoked,hrevoked⟩ : ∃ q,q=if (!last)=true then m.revoke else m := ⟨_,rfl⟩
  have halike : Alike m revoked := by
    rw [hrevoked]
    split
    · exact alike_revoke hrange
    · exact .refl m
  have hinside : InRange revoked := by
    rw [hrevoked]
    split
    · exact inRange_revoke hrange
    · exact hrange
  have hstatus : Invited≤ revoked.status ↔ last=true := by
    unfold InRange at hrange
    cases last with
    | true =>
      have hconfirmed : m.status=Confirmed := (of_decide_eq_true hlast).2.1
      have hkept : revoked=m := hrevoked
      rw [hkept,hconfirmed]
      decide
    | false =>
      have hgone : revoked=m.revoke := hrevoked
      rw [hgone,status_revoke]
      refine iff_of_false ?_ Bool.false_ne_true
      unfold ACTIVATE_REVOKE_DIFF Revoked Invited at *
      omega
  have hid : revoked.externalId=m.externalId := by
    rw [hrevoked]
    split
    · exact externalId_revoke m
    · rfl
  have hset := externalId_set revoked e
  rw [hid] at hset
  dsimp only
  rw [← hrevoked]
  refine (ends_saveChanged hm (halike.trans (alike_setExternalId revoked e.externalId)) fun hchanged => ?_).mono
    fun r s' ⟨hr,hrow⟩ => ⟨hr,_,hrow,halike.trans (alike_setExternalId revoked e.externalId),hset,?_,?_⟩
  · obtain ⟨hstays,hmodified⟩ := Bool.or_eq_false_iff.mp hchanged
    rw [setExternalId_unchanged hmodified,hrevoked]
    split
    · rename_i hgoes
      rw [hgoes,Bool.true_and,decide_eq_false_iff_not] at hstays
      exact if_neg hstays
    · rfl
  · exact inRange_of_status (setExternalId_same revoked e.externalId).2.2.2.2 hinside
  · rw [(setExternalId_same revoked e.externalId).2.2.2.2]
    exact hstatus

/-- A member that is in the directory. -/
theorem ends_restoreListed (hm : m∈s.members) (hrange : InRange m) : Ends (restoreListed e m) s fun r s' =>
    r=.ok () ∧ ∃ m',Replaces m m' s s' ∧ Alike m m' ∧ m'.externalId=nextId m.externalId e ∧ InRange m' ∧
      Invited≤ m'.status := by
  unfold restoreListed
  have halike := (alike_restore hrange).trans (alike_setExternalId m.restore e.externalId)
  have hstatus : (setExternalId m.restore e.externalId).1.status=m.restore.status :=
    (setExternalId_same m.restore e.externalId).2.2.2.2
  have hset := externalId_set m.restore e
  rw [externalId_restore] at hset
  refine (ends_saveChanged hm halike fun hchanged => ?_).mono fun r s' ⟨hr,hrow⟩ =>
    ⟨hr,_,hrow,halike,hset,inRange_of_status hstatus (inRange_restore hrange),?_⟩
  · obtain ⟨hactive,hmodified⟩ := Bool.or_eq_false_iff.mp hchanged
    rw [setExternalId_unchanged hmodified]
    exact if_neg (of_decide_eq_false hactive)
  · rw [hstatus,status_restore]
    unfold InRange at hrange
    unfold ACTIVATE_REVOKE_DIFF Invited at *
    omega

/-- The account of a new member is there or can be created. -/
theorem ends_importedUser {email : Text}
    (hlower : settings.toLowercase (settings.toLowercase email)=settings.toLowercase email)
    (hallowed : (∃ u∈s.users,u.email=settings.toLowercase email) ∨
      settings.isValidEmail (settings.toLowercase email)=true) :
    Ends (importedUser settings out email) s fun r s' => Keeps s s' ∧ ∃ u created,r=.ok (u,created) ∧
      u.email=settings.toLowercase email ∧
      (u∈s.users ∨ settings.isValidEmail (settings.toLowercase email)=true) ∧
      ∀ v,v∈s'.users ↔ v=u ∨ v∈s.users := by
  unfold importedUser User.findByMail
  refine ends_lookup ?_
  cases hfound : s.users.find? fun u => u.email=settings.toLowercase email with
  | some u =>
    have hu := List.mem_of_find?_eq_some hfound
    have hemail := List.find?_some hfound
    rw [decide_eq_true_eq] at hemail
    refine ⟨⟨rfl,rfl,rfl,rfl⟩,u,false,rfl,hemail,.inl hu,fun v => ?_⟩
    exact ⟨.inr,fun h => h.elim (fun hv => hv ▸ hu) id⟩
  | none =>
    rw [List.find?_eq_none] at hfound
    have hvalid : settings.isValidEmail (settings.toLowercase email)=true := by
      rcases hallowed with ⟨u,hu,hemail⟩|hvalid
      · exact absurd (decide_eq_true hemail) (hfound u hu)
      · exact hvalid
    refine ends_getUuid (ends_getUuid ?_)
    dsimp only
    generalize hnew : User.new s.next s.drawn.next out.randomBytes settings.passwordIterations
      (settings.toLowercase email) none=u
    have huuid : u.uuid=s.next := by rw [← hnew]; rfl
    have hemail : u.email=settings.toLowercase email := by rw [← hnew]; rfl
    have hsaved : Ends (User.save settings u) s.drawn.drawn fun r s₁ => r=.ok () ∧
        s₁.toTables={s.drawn.drawn.toTables with users := put User.uuid u s.users} := by
      unfold User.save
      rw [hemail,if_pos hvalid]
      refine ends_update_done (valid_user s.drawn.drawn.valid ?_ fun q hq hsame => ?_) ⟨rfl,rfl⟩
      · rw [huuid]
        exact Nat.lt_succ_of_lt (Nat.lt_succ_self s.next)
      · exact absurd (decide_eq_true (hsame.trans hemail)) (hfound q hq)
    refine hsaved.bind ?_ ?_
    swap
    · rintro e s₁ ⟨he,-⟩
      cases he
    rintro _ s₁ ⟨-,htables⟩
    have hinvited : Ends (inviteByTable settings u.email) s₁ fun r s₂ =>
        r=.ok () ∧ Keeps s₁ s₂ ∧ s₂.users=s₁.users := by
      unfold inviteByTable Invitation.save
      rw [hemail,hlower]
      dsimp only
      rw [if_pos hvalid]
      split
      · exact Ends.pure ⟨rfl,⟨rfl,rfl,rfl,rfl⟩,rfl⟩
      · exact ends_update_done s₁.valid ⟨rfl,⟨rfl,rfl,rfl,rfl⟩,rfl⟩
    refine hinvited.bind ?_ ?_
    swap
    · rintro e s₂ ⟨he,-⟩
      cases he
    rintro _ s₂ ⟨-,hkeeps,husers⟩
    refine Ends.pure ⟨?_,u,true,rfl,hemail,.inr hvalid,fun v => ?_⟩
    · unfold Keeps at hkeeps ⊢
      rwa [htables] at hkeeps
    · rw [husers,htables]
      refine mem_put.trans (or_congr_right (and_iff_left_of_imp fun hv => ?_))
      rw [huuid]
      exact (s.valid.2.2.1 v hv).ne

/-- Or nothing but the numbers drawn is different. -/
theorem ends_importedUser_refused {email : Text} (hnone : ∀ u∈s.users,u.email≠settings.toLowercase email)
    (hinvalid : settings.isValidEmail (settings.toLowercase email)=false) :
    Ends (importedUser settings out email) s fun r s' => (∃ e,r=.error e) ∧ Keeps s s' ∧ s'.users=s.users := by
  unfold importedUser User.findByMail
  refine ends_lookup ?_
  rw [List.find?_eq_none.mpr fun u hu h => hnone u hu (of_decide_eq_true h)]
  refine ends_getUuid (ends_getUuid ?_)
  dsimp only
  generalize hnew : User.new s.next s.drawn.next out.randomBytes settings.passwordIterations
    (settings.toLowercase email) none=u
  have hemail : u.email=settings.toLowercase email := by rw [← hnew]; rfl
  unfold User.save
  rw [hemail,hinvalid,if_neg Bool.false_ne_true]
  exact ⟨⟨_,rfl⟩,⟨rfl,rfl,rfl,rfl⟩,rfl⟩

/-- A mail that goes out. -/
theorem ends_mailInvite {created : Bool} {u : User} (hdelivers : ∀ a,out.delivers a=true)
    (horg : ∃ o∈s.organizations,o.uuid=m.orgUuid) :
    Ends (mailInvite settings out created u m) s fun r s' => r=.ok () ∧ s'=s := by
  unfold mailInvite
  split
  · refine ends_lookup (Ends.expect (fun o _ => ?_) fun hnone => ?_)
    · rw [if_pos (hdelivers u.email)]
      exact ⟨rfl,rfl⟩
    · rw [List.find?_eq_none] at hnone
      obtain ⟨o,ho,hkey⟩ := horg
      exact absurd (decide_eq_true hkey) (hnone o ho)
  · exact ⟨rfl,rfl⟩

/-- A new member. -/
theorem ends_inviteListed (hlower : ∀ a,settings.toLowercase (settings.toLowercase a)=settings.toLowercase a)
    (hdelivers : ∀ a,out.delivers a=true) (horg : ∃ o∈s.organizations,o.uuid=organization)
    (hnobody : ∀ q,¬At organization (address settings e) s.toTables q)
    (hallowed : (∃ u∈s.users,u.email=address settings e) ∨ settings.isValidEmail (address settings e)=true) :
    Ends (inviteListed settings out organization orgEmail e) s fun r s' => r=.ok () ∧
      ∃ m,Joins settings organization (address settings e) m s s' ∧
        m.externalId=(if e.externalId=[] then none else some e.externalId) ∧ InRange m ∧ Invited≤ m.status := by
  unfold inviteListed
  refine (ends_importedUser (hlower e.email) hallowed).bind (fun found s₁ h => ?_) fun _ s₁ h => ?_
  swap
  · obtain ⟨_,_,_,he,_⟩ := h
    cases he
  obtain ⟨⟨hmembers,hgroups,hplaces,horgs⟩,u,created,hr,hemail,hvalid,husers⟩ := h
  cases hr
  dsimp only
  refine ends_lookup (Ends.expect (fun o _ => ?_) fun hnone => ?_)
  swap
  · rw [horgs,List.find?_eq_none] at hnone
    obtain ⟨o,ho,hkey⟩ := horg
    exact absurd (decide_eq_true hkey) (hnone o ho)
  refine ends_getUuid ?_
  have hstatus : ∀ n,n=(if settings.mailEnabled=true ∨ u.passwordHash=[] then Invited else Accepted) →
      Invited≤n ∧ n<ACTIVATE_REVOKE_DIFF := by
    rintro n rfl
    split <;> decide
  generalize hn : (if settings.mailEnabled=true ∨ u.passwordHash=[] then Invited else Accepted)=n
  obtain ⟨hactive,hbelow⟩ := hstatus n hn.symm
  generalize hrow : {(setExternalId (ServerTables.Membership.new s₁.next u.uuid organization (some orgEmail))
    e.externalId).1 with accessAll := false, atype := .user, status := n}=m
  have hset := setExternalId_same (ServerTables.Membership.new s₁.next u.uuid organization (some orgEmail)) e.externalId
  have huuid : m.uuid=s₁.next := by rw [← hrow]; exact hset.1
  have huser : m.userUuid=u.uuid := by rw [← hrow]; exact hset.2.1
  have hmorg : m.orgUuid=organization := by rw [← hrow]; exact hset.2.2.1
  have hmstatus : m.status=n := by rw [← hrow]
  have hid : m.externalId=if e.externalId=[] then none else some e.externalId := by rw [← hrow]; rfl
  have hfresh : ∀ q∈s.members,q.uuid≠m.uuid := by
    intro q hq
    rw [huuid]
    exact (s₁.valid.2.2.2.2.1 q (hmembers.symm ▸ hq)).ne
  have hin : u∈s₁.users := (husers u).mpr (.inl rfl)
  have hvalidRow : {s₁.drawn.toTables with members := put Membership.uuid m s₁.members}.Valid := by
    refine valid_member s₁.drawn.valid ?_ ⟨u,hin,huser.symm⟩ ?_ fun q hq hpair => ?_
    · rw [huuid]
      exact Nat.lt_succ_self s₁.next
    · rw [hmorg]
      obtain ⟨o,ho,hkey⟩ := horg
      exact ⟨o,horgs.symm ▸ ho,hkey⟩
    -- the account has no membership yet
    · obtain ⟨hquser,hqorg⟩ := Prod.mk.inj hpair
      have hq : q∈s.members := hmembers ▸ hq
      obtain ⟨v,hv,hvq⟩ := user_of_member hq
      have hsame : v=u := eq_of_key s₁.user_nodup ((husers v).mpr (.inr hv)) hin (hvq.trans (hquser.trans huser))
      subst hsame
      exact absurd ⟨hq,hqorg.trans hmorg,v,hv,hvq,hemail⟩ (hnobody q)
  refine ends_update_to hvalidRow fun s₂ htables => ?_
  have horg₂ : ∃ o∈s₂.organizations,o.uuid=m.orgUuid := by
    rw [htables,hmorg]
    obtain ⟨o,ho,hkey⟩ := horg
    exact ⟨o,horgs.symm ▸ ho,hkey⟩
  refine (ends_mailInvite hdelivers horg₂).mono fun r s₃ ⟨hr,hs₃⟩ => ⟨hr,m,⟨?_,?_,?_,hfresh,hmorg⟩,hid,?_,?_⟩
  · rw [hs₃,htables]
    exact ⟨hgroups,hplaces,horgs⟩
  · refine ⟨u,huser.symm,hemail,hvalid,fun v => ?_⟩
    rw [hs₃,htables]
    exact husers v
  · intro q
    rw [hs₃,htables]
    refine mem_put.trans ?_
    show q=m ∨ q∈s₁.members ∧ _ ↔ _
    rw [hmembers]
    exact or_congr_right (and_iff_left_of_imp (hfresh q))
  · refine inRange_of_status hmstatus ⟨?_,hbelow⟩
    unfold ACTIVATE_REVOKE_DIFF
    unfold Invited at hactive
    omega
  · rw [hmstatus]
    exact hactive

/-- The addresses whose members the guard spares at their last entry, as far as
an import gets. -/
def spared (settings : Settings) (org : Uuid) (out : Outside) (orgEmail : Text) :
    List OrgImportUserData → Database → List Text → List Text
  | [],_,k => k
  | e::es,db,k =>
    let ended := complete (importMember settings out org orgEmail e) db
    match ended.1 with
    | .ok _ =>
      spared settings org out orgEmail es ended.2 (noted (spares settings org db.toTables e) (address settings e) k)
    | .error _ => k

/-- What an import may rely on: lower case letters stay, mails go out, and the
organisation of the token is there. -/
structure Supported (settings : Settings) (out : Outside) (organization : Uuid) (db : Database) : Prop where
  /-- `to_lowercase`. -/
  lower : ∀ a,settings.toLowercase (settings.toLowercase a)=settings.toLowercase a
  /-- Mails. -/
  delivers : ∀ a,out.delivers a=true
  /-- The organisation. -/
  organization : ∃ o∈db.organizations,o.uuid=organization

/-- The guard looks at the member of the address. -/
theorem spares_of_at (hm : At organization (address settings e) s.toTables m) :
    spares settings organization s.toTables e=(e.deleted && lastConfirmedOwner organization s.toTables m) := by
  unfold spares
  congr 1
  rw [Bool.eq_iff_iff,List.any_eq_true]
  refine ⟨fun ⟨q,_,hq⟩ => ?_,fun hlast => ⟨m,hm.1,?_⟩⟩
  · rw [Bool.and_eq_true,decide_eq_true_eq] at hq
    rw [hm.unique hq.1]
    exact hq.2
  · rw [Bool.and_eq_true,decide_eq_true_eq]
    exact ⟨hm,hlast⟩

/-- An entry that is accepted. -/
theorem ends_entry (hsupported : Supported settings out organization db) (h : Tracks settings organization db done k s)
    (haccepts : accepts settings db.toTables e=true) :
    Ends (importMember settings out organization orgEmail e) s fun r s' => r=.ok () ∧
      Tracks settings organization db (done++[e])
        (noted (spares settings organization s.toTables e) (address settings e) k) s' := by
  have hk : ∀ b,b≠address settings e →
      (b∈noted (spares settings organization s.toTables e) (address settings e) k ↔ b∈k) := fun b => mem_noted_of_ne
  unfold importMember
  refine ends_findByEmail.bind (fun found s₁ ⟨hs,found',hfound,hsome,hnone⟩ => ?_) fun _ s₁ h' => ?_
  swap
  · obtain ⟨-,_,he,-⟩ := h'
    cases he
  subst hs
  cases hfound
  cases found with
  | some m =>
    obtain ⟨hm,hmorg,u,hu,huser,hemail⟩ := hsome m rfl
    have hat : At organization (address settings e) s₁.toTables m := ⟨hm,hmorg,u,hu,huser,hemail⟩
    dsimp only
    split
    · rename_i hdeleted
      refine (ends_revokeListed hm (h.ranged m hm)).mono fun r s' ⟨hr,m',hrow,halike,hid,hrange,hstatus⟩ =>
        ⟨hr,h.replaces hat hrow halike hid hrange ?_ hk⟩
      unfold Settles
      rw [hstatus,mem_noted,spares_of_at hat,hdeleted]
      simp
    · rename_i hlisted
      rw [Bool.not_eq_true] at hlisted
      refine (ends_restoreListed hm (h.ranged m hm)).mono fun r s' ⟨hr,m',hrow,halike,hid,hrange,hstatus⟩ =>
        ⟨hr,h.replaces hat hrow halike hid hrange (iff_of_true hstatus (.inl hlisted)) hk⟩
  | none =>
    have hnobody : ∀ q,¬At organization (address settings e) s₁.toTables q := by
      rintro q ⟨hq,hqorg,u,hu,huser,hemail⟩
      exact hnone rfl u hu hemail q hq huser.symm hqorg
    dsimp only
    split
    · rename_i hdeleted
      exact Ends.pure ⟨rfl,h.skips hdeleted hnobody hk⟩
    · rename_i hlisted
      rw [Bool.not_eq_true] at hlisted
      have hallowed : (∃ u∈s₁.users,u.email=address settings e) ∨ settings.isValidEmail (address settings e)=true := by
        unfold accepts at haccepts
        rw [hlisted,Bool.false_or,Bool.or_eq_true,List.any_eq_true] at haccepts
        exact haccepts.imp_left fun ⟨u,hu,hemail⟩ => ⟨u,h.users u hu,of_decide_eq_true hemail⟩
      have horg : ∃ o∈s₁.organizations,o.uuid=organization := by
        rw [h.others.2.2]
        exact hsupported.organization
      exact (ends_inviteListed hsupported.lower hsupported.delivers horg hnobody hallowed).mono
        fun r s' ⟨hr,m,hrow,hid,hrange,hstatus⟩ => ⟨hr,h.joins hlisted hnobody hrow hid hrange hstatus hk⟩

/-- An entry that is refused. -/
theorem ends_refused (h : Tracks settings organization db done k s) (hrefuses : accepts settings db.toTables e=false) :
    Ends (importMember settings out organization orgEmail e) s fun r s' => (∃ error,r=.error error) ∧
      Tracks settings organization db done k s' := by
  unfold accepts at hrefuses
  rw [Bool.or_eq_false_iff,Bool.or_eq_false_iff,List.any_eq_false] at hrefuses
  obtain ⟨⟨hlisted,hunknown⟩,hinvalid⟩ := hrefuses
  have hnone : ∀ u∈s.users,u.email≠address settings e := by
    intro u hu hemail
    rcases h.created u hu with hold|⟨hvalid,-⟩
    · exact hunknown u hold (decide_eq_true hemail)
    · rw [hemail,hinvalid] at hvalid
      cases hvalid
  unfold importMember
  refine ends_findByEmail.bind (fun found s₁ ⟨hs,found',hfound,hsome,_⟩ => ?_) fun _ s₁ h' => ?_
  swap
  · obtain ⟨-,_,he,-⟩ := h'
    cases he
  subst hs
  cases hfound
  cases found with
  | some m =>
    obtain ⟨-,-,u,hu,-,hemail⟩ := hsome m rfl
    exact absurd hemail (hnone u hu)
  | none =>
    dsimp only
    rw [hlisted,if_neg Bool.false_ne_true]
    unfold inviteListed
    refine (ends_importedUser_refused hnone hinvalid).bind (fun _ s₂ h₂ => ?_) fun error s₂ h₂ => ?_
    · obtain ⟨⟨_,he⟩,-⟩ := h₂
      cases he
    · exact ⟨⟨error,rfl⟩,h.keeps h₂.2.1 h₂.2.2⟩

/-- The entries of an import, up to the first one that is refused. -/
theorem ends_entries (hsupported : Supported settings out organization db)
    (h : Tracks settings organization db done k s)
    (es : List OrgImportUserData) : Ends (each es (importMember settings out organization orgEmail)) s fun r s' =>
      Tracks settings organization db (done++es.takeWhile (accepts settings db.toTables))
        (spared settings organization out orgEmail es s k) s' ∧
      (r=.ok () ↔ ∀ e∈es,accepts settings db.toTables e=true) := by
  induction es generalizing done k s with
  | nil =>
    refine Ends.pure ⟨?_,fun _ e he => absurd he List.not_mem_nil,fun _ => rfl⟩
    rw [List.takeWhile_nil,List.append_nil]
    exact h
  | cons e es ih =>
    -- where the first entry ends
    have hends : Ends (importMember settings out organization orgEmail e) s fun r s' =>
        (complete (importMember settings out organization orgEmail e) s).1=r ∧
          (complete (importMember settings out organization orgEmail e) s).2=s' := ⟨rfl,rfl⟩
    cases haccepts : accepts settings db.toTables e with
    | true =>
      refine (hends.and (ends_entry hsupported h haccepts)).bind (fun _ s₁ ⟨⟨hr,hs₁⟩,_,h₁⟩ => ?_) fun _ _ ⟨_,he,_⟩ => ?_
      swap
      · cases he
      unfold spared
      dsimp only
      rw [hr,hs₁,List.takeWhile_cons_of_pos haccepts]
      refine (ih h₁).mono fun r s' ⟨h',hall⟩ => ⟨?_,?_⟩
      · rw [List.append_assoc] at h'
        exact h'
      · rw [hall,List.forall_mem_cons]
        exact ⟨fun hrest => ⟨haccepts,hrest⟩,And.right⟩
    | false =>
      have hnot : ¬accepts settings db.toTables e=true := by
        rw [haccepts]
        exact Bool.false_ne_true
      refine (hends.and (ends_refused h haccepts)).bind (fun _ _ ⟨_,⟨_,he⟩,_⟩ => ?_) fun _ s₁ ⟨⟨hr,_⟩,_,h₁⟩ => ?_
      · cases he
      unfold spared
      dsimp only
      rw [hr,List.takeWhile_cons_of_neg hnot,List.append_nil]
      refine ⟨h₁,fun he => ?_,fun hall => absurd (hall e List.mem_cons_self) hnot⟩
      cases he

end Runs

end NadSafe.ImportEntries
