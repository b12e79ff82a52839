import NadSafe.AccessEdits

/-!
# Deletes that are accepted

A row may go once no other row names it. The handlers delete the rows that
refer to a row before the row itself, so the delete of a membership is always
accepted, and that of an account unless a grant for one of its collections is
left in an organisation that it is no member of.
-/

namespace NadSafe.RowDeletes

open HostText TableRows AsyncScript ServerTables AccessQueries StoreScript ServerModels OrgHandlers
open PlannedScript TableWrites AccessEdits

section Accepted

variable {t : Tables}

theorem refers_kept {ρ τ : Type} {rows : List ρ} {ref : ρ → Uuid} {targets : List τ} {key : τ → Uuid}
    {keep : τ → Bool} (h : Refers rows ref targets key)
    (hkeep : ∀ r∈rows,∀ x∈targets,key x=ref r → keep x=true) : Refers rows ref (targets.filter keep) key := by
  intro r hr
  obtain ⟨x,hx,hkey⟩ := h r hr
  exact ⟨x,List.mem_filter.mpr ⟨hx,hkeep r hr x hx hkey⟩,hkey⟩

theorem mayRefer_kept {ρ τ : Type} {rows : List ρ} {ref : ρ → Option Uuid} {targets : List τ} {key : τ → Uuid}
    {keep : τ → Bool} (h : MayRefer rows ref targets key)
    (hkeep : ∀ r∈rows,∀ x∈targets,ref r=some (key x) → keep x=true) :
    MayRefer rows ref (targets.filter keep) key := by
  intro r hr
  rcases h r hr with hnone|⟨x,hx,hkey⟩
  · exact .inl hnone
  · exact .inr ⟨x,List.mem_filter.mpr ⟨hx,hkeep r hr x hx hkey⟩,hkey⟩

/-- Emergency access may go. -/
theorem valid_removeEmergencyAccess {keep : EmergencyAccess → Bool} (h : t.Valid) :
    {t with emergencyAccess := t.emergencyAccess.filter keep}.Valid := by
  obtain ⟨hkeys,hlinks,hrows⟩ := h
  unfold Tables.Keyed at hkeys
  unfold Tables.Linked at hlinks
  unfold Tables.Drawn at hrows
  casesm* _ ∧ _
  refine ⟨?_,?_,?_⟩
  all_goals and_intros
  all_goals first
    | assumption
    | exact (‹(t.emergencyAccess.map EmergencyAccess.uuid).Nodup›).sublist (List.filter_sublist.map _)
    | exact refers_filter ‹_›
    | exact fun e he => ‹MayRefer t.emergencyAccess EmergencyAccess.granteeUuid t.users User.uuid› e
        (List.mem_filter.mp he).1
    | exact fun e he => (‹∀ e∈t.emergencyAccess,e.uuid<t.next›) e (List.mem_filter.mp he).1

/-- Devices may go. -/
theorem valid_removeDevices {keep : Device → Bool} (h : t.Valid) :
    {t with devices := t.devices.filter keep}.Valid := by
  obtain ⟨hkeys,hlinks,hrows⟩ := h
  unfold Tables.Keyed at hkeys
  unfold Tables.Linked at hlinks
  casesm* _ ∧ _
  refine ⟨?_,?_,hrows⟩
  all_goals and_intros
  all_goals first
    | assumption
    | exact (‹(t.devices.map Device.key).Nodup›).sublist (List.filter_sublist.map _)
    | exact refers_filter ‹_›

/-- Invitations may go. -/
theorem valid_removeInvitations {keep : Text → Bool} (h : t.Valid) :
    {t with invitations := t.invitations.filter keep}.Valid := h

/-- Memberships may go that are in no group. -/
theorem valid_removeMembers {keep : Membership → Bool} (h : t.Valid)
    (hkeep : ∀ r∈t.groupsUsers,∀ m∈t.members,m.uuid=r.usersOrganizationsUuid → keep m=true) :
    {t with members := t.members.filter keep}.Valid := by
  obtain ⟨hkeys,hlinks,hrows⟩ := h
  unfold Tables.Keyed at hkeys
  unfold Tables.Linked at hlinks
  unfold Tables.Drawn at hrows
  casesm* _ ∧ _
  refine ⟨?_,?_,?_⟩
  all_goals and_intros
  all_goals first
    | assumption
    | exact (‹(t.members.map Membership.uuid).Nodup›).sublist (List.filter_sublist.map _)
    | exact (‹(t.members.map fun m => (m.userUuid,m.orgUuid)).Nodup›).sublist (List.filter_sublist.map _)
    | exact refers_filter ‹_›
    | exact refers_kept ‹_› hkeep
    | exact fun m hm => (‹∀ m∈t.members,m.uuid<t.next›) m (List.mem_filter.mp hm).1

/-- Folders may go that have no ciphers. -/
theorem valid_removeFolders {keep : Folder → Bool} (h : t.Valid)
    (hkeep : ∀ r∈t.foldersCiphers,∀ f∈t.folders,f.uuid=r.folderUuid → keep f=true) :
    {t with folders := t.folders.filter keep}.Valid := by
  obtain ⟨hkeys,hlinks,hrows⟩ := h
  unfold Tables.Keyed at hkeys
  unfold Tables.Linked at hlinks
  unfold Tables.Drawn at hrows
  casesm* _ ∧ _
  refine ⟨?_,?_,?_⟩
  all_goals and_intros
  all_goals first
    | assumption
    | exact (‹(t.folders.map Folder.uuid).Nodup›).sublist (List.filter_sublist.map _)
    | exact refers_filter ‹_›
    | exact refers_kept ‹_› hkeep
    | exact fun f hf => (‹∀ f∈t.folders,f.uuid<t.next›) f (List.mem_filter.mp hf).1

/-- Ciphers may go that are in no folder and no collection and have neither
attachments nor favourites. -/
theorem valid_removeCiphers {keep : Cipher → Bool} (h : t.Valid)
    (hlinks : ∀ r∈t.ciphersCollections,∀ c∈t.ciphers,c.uuid=r.cipherUuid → keep c=true)
    (hattachments : ∀ a∈t.attachments,∀ c∈t.ciphers,c.uuid=a.cipherUuid → keep c=true)
    (hplaces : ∀ r∈t.foldersCiphers,∀ c∈t.ciphers,c.uuid=r.cipherUuid → keep c=true)
    (hfavorites : ∀ r∈t.favorites,∀ c∈t.ciphers,c.uuid=r.cipherUuid → keep c=true) :
    {t with ciphers := t.ciphers.filter keep}.Valid := by
  obtain ⟨hkeys,hrefs,hrows⟩ := h
  unfold Tables.Keyed at hkeys
  unfold Tables.Linked at hrefs
  unfold Tables.Drawn at hrows
  casesm* _ ∧ _
  refine ⟨?_,?_,?_⟩
  all_goals and_intros
  all_goals first
    | assumption
    | exact (‹(t.ciphers.map Cipher.uuid).Nodup›).sublist (List.filter_sublist.map _)
    | exact refers_kept ‹_› hlinks
    | exact refers_kept ‹_› hattachments
    | exact refers_kept ‹_› hplaces
    | exact refers_kept ‹_› hfavorites
    | exact fun c hc => ‹MayRefer t.ciphers Cipher.userUuid t.users User.uuid› c (List.mem_filter.mp hc).1
    | exact fun c hc => ‹MayRefer t.ciphers Cipher.organizationUuid t.organizations Organization.uuid› c
        (List.mem_filter.mp hc).1
    | exact fun c hc => (‹∀ c∈t.ciphers,c.uuid<t.next›) c (List.mem_filter.mp hc).1

/-- No row of an account is left. -/
structure Bare (t : Tables) (user : Uuid) : Prop where
  /-- Memberships. -/
  members : ∀ m∈t.members,m.userUuid≠user
  /-- Ciphers. -/
  ciphers : ∀ c∈t.ciphers,c.userUuid≠some user
  /-- Factors. -/
  twofactor : ∀ f∈t.twofactor,f.userUuid≠user
  /-- Folders. -/
  folders : ∀ f∈t.folders,f.userUuid≠user
  /-- Favourites. -/
  favorites : ∀ r∈t.favorites,r.userUuid≠user
  /-- Sends. -/
  sends : ∀ s∈t.sends,s.userUuid≠some user
  /-- Emergency access. -/
  emergencyAccess : ∀ e∈t.emergencyAccess,e.grantorUuid≠user ∧ e.granteeUuid≠some user
  /-- Devices. -/
  devices : ∀ d∈t.devices,d.userUuid≠user

/-- A bare account may go, if it has no grants either. -/
theorem valid_removeUser {user : Uuid} (h : t.Valid) (hbare : Bare t user)
    (hgrants : ∀ r∈t.usersCollections,r.userUuid≠user) :
    {t with users := t.users.filter fun u => u.uuid≠user}.Valid := by
  have hkept : ∀ {ρ : Type} {rows : List ρ} {ref : ρ → Uuid},(∀ r∈rows,ref r≠user) →
      Refers rows ref t.users User.uuid →
      Refers rows ref (t.users.filter fun u => u.uuid≠user) User.uuid := fun hrows h =>
    refers_kept h fun r hr u _ hkey => decide_eq_true (hkey ▸ hrows r hr)
  have hmayKept : ∀ {ρ : Type} {rows : List ρ} {ref : ρ → Option Uuid},(∀ r∈rows,ref r≠some user) →
      MayRefer rows ref t.users User.uuid →
      MayRefer rows ref (t.users.filter fun u => u.uuid≠user) User.uuid := fun hrows h =>
    mayRefer_kept h fun r hr u _ hkey => decide_eq_true fun heq => hrows r hr (heq ▸ hkey)
  obtain ⟨hkeys,hlinks,hrows⟩ := h
  unfold Tables.Keyed at hkeys
  unfold Tables.Linked at hlinks
  unfold Tables.Drawn at hrows
  casesm* _ ∧ _
  refine ⟨?_,?_,?_⟩
  all_goals and_intros
  all_goals first
    | assumption
    | exact (‹(t.users.map User.uuid).Nodup›).sublist (List.filter_sublist.map _)
    | exact (‹(t.users.map User.email).Nodup›).sublist (List.filter_sublist.map _)
    | exact hkept hbare.members ‹_›
    | exact hkept hgrants ‹_›
    | exact hmayKept hbare.ciphers ‹_›
    | exact hkept hbare.twofactor ‹_›
    | exact hkept hbare.folders ‹_›
    | exact hkept hbare.favorites ‹_›
    | exact hmayKept hbare.sends ‹_›
    | exact hkept (fun e he => (hbare.emergencyAccess e he).1) ‹_›
    | exact hmayKept (fun e he => (hbare.emergencyAccess e he).2) ‹_›
    | exact hkept hbare.devices ‹_›
    | exact fun u hu => (‹∀ u∈t.users,u.uuid<t.next›) u (List.mem_filter.mp hu).1

end Accepted

section Loops

variable {β : Type} {db : Database}

/-- A loop whose statements are all accepted, with the elements that it has
gone through. -/
theorem ends_each_gone {K : List β → Database → Prop} {xs : List β} {body : β → Action Unit} (hstart : K [] db)
    (hstep : ∀ gone x rest s,xs=gone++x::rest → K gone s →
      Ends (body x) s fun r s' => r=.ok () ∧ K (gone++[x]) s') :
    Ends (each xs body) db fun r s' => r=.ok () ∧ K xs s' := by
  have hloop : ∀ rest gone s,xs=gone++rest → K gone s → Ends (each rest body) s fun r s' => r=.ok () ∧ K xs s' := by
    intro rest
    induction rest with
    | nil =>
      intro gone s hxs hs
      rw [List.append_nil] at hxs
      subst hxs
      exact Ends.pure ⟨rfl,hs⟩
    | cons x rest ih =>
      intro gone s hxs hs
      refine (hstep gone x rest s hxs hs).bind (fun _ s' ⟨_,hs'⟩ => ?_) fun e s' ⟨he,_⟩ => nomatch he
      exact ih (gone++[x]) s' (by rw [hxs,List.append_assoc,List.singleton_append]) hs'
  exact hloop xs [] db rfl hstart

/-- One more row is gone. -/
theorem mem_gone {ρ : Type} {key : ρ → Uuid} {rows left gone : List ρ} {x : ρ} (hkeys : (rows.map key).Nodup)
    (hx : x∈rows) (h : ∀ q,q∈left ↔ q∈rows ∧ q∉gone) :
    ∀ q,q∈left.filter (fun q => key q≠key x) ↔ q∈rows ∧ q∉gone++[x] := by
  intro q
  rw [List.mem_filter,h q,decide_eq_true_eq,List.mem_append,List.mem_singleton,not_or,and_assoc]
  refine and_congr_right fun hq => and_congr_right fun _ => not_congr ⟨fun hkey => ?_,fun heq => by rw [heq]⟩
  exact eq_of_key hkeys hq hx hkey

/-- Without the rows that a filter gives, the others are left. -/
theorem mem_left {ρ : Type} {rows : List ρ} {p : ρ → Bool} {q : ρ} :
    q∈rows ∧ q∉rows.filter p ↔ q∈rows ∧ p q=false := by
  refine and_congr_right fun hq => ?_
  rw [List.mem_filter,not_and,Bool.not_eq_true]
  exact ⟨fun h => h hq,fun h _ => h⟩

end Loops

section Accounts

variable {settings : Settings} {db : Database} {user : Uuid}

theorem ends_deleteSends : Ends (Send.deleteAllByUser user) db fun r db' => r=.ok () ∧
    ∃ sends,db'.toTables={db.toTables with sends := sends} ∧ ∀ s,s∈sends ↔ s∈db.sends ∧ s.userUuid≠some user := by
  unfold Send.deleteAllByUser
  refine ends_lookup ((ends_each_gone (K:=fun gone s' => ∃ sends,s'.toTables={db.toTables with sends := sends} ∧
    ∀ s,s∈sends ↔ s∈db.sends ∧ s∉gone) ⟨db.sends,rfl,by simp⟩ fun gone x rest s hxs hs => ?_).mono
    fun r db' ⟨hr,sends,htables,hsends⟩ => ⟨hr,sends,htables,fun s => (hsends s).trans ?_⟩)
  · obtain ⟨sends,htables,hsends⟩ := hs
    have hx : x∈db.sends := by
      have hmem : x∈db.sends.filter fun s => s.userUuid=some user := by
        rw [hxs]
        exact List.mem_append_right _ List.mem_cons_self
      exact (List.mem_filter.mp hmem).1
    refine ends_update_done (valid_removeSends s.valid) ⟨rfl,_,?_,mem_gone db.send_nodup hx hsends⟩
    dsimp only
    rw [htables]
  · rw [mem_left,decide_eq_false_iff_not]

/-- The rows of an account and its address in `emergency_access`. -/
theorem ends_deleteEmergencyAccess {email : Text} : Ends (EmergencyAccess.deleteAllByUser user email) db fun r db' =>
    r=.ok () ∧ ∃ rows,db'.toTables={db.toTables with emergencyAccess := rows} ∧
      ∀ e∈rows,e.grantorUuid≠user ∧ e.granteeUuid≠some user := by
  have hloop : ∀ (s : Database) (p : EmergencyAccess → Bool),
      Ends (each (s.emergencyAccess.filter p) EmergencyAccess.delete) s fun r s' => r=.ok () ∧
        ∃ rows,s'.toTables={s.toTables with emergencyAccess := rows} ∧
          ∀ e,e∈rows ↔ e∈s.emergencyAccess ∧ p e=false := by
    intro s p
    refine (ends_each_gone (K:=fun gone s' => ∃ rows,s'.toTables={s.toTables with emergencyAccess := rows} ∧
      ∀ e,e∈rows ↔ e∈s.emergencyAccess ∧ e∉gone) ⟨s.emergencyAccess,rfl,by simp⟩ fun gone x rest s₁ hxs hs => ?_).mono
      fun r s' ⟨hr,rows,htables,hrows⟩ => ⟨hr,rows,htables,fun e => (hrows e).trans mem_left⟩
    obtain ⟨rows,htables,hrows⟩ := hs
    have hx : x∈s.emergencyAccess := by
      have hmem : x∈s.emergencyAccess.filter p := by
        rw [hxs]
        exact List.mem_append_right _ List.mem_cons_self
      exact (List.mem_filter.mp hmem).1
    refine ends_update_done (valid_removeEmergencyAccess s₁.valid) ⟨rfl,_,?_,mem_gone s.emergency_nodup hx hrows⟩
    dsimp only
    rw [htables]
  unfold EmergencyAccess.deleteAllByUser
  refine ends_lookup ((hloop db _).bind (fun _ db₁ ⟨_,rows₁,htables₁,hrows₁⟩ => ?_) fun e _ ⟨he,_⟩ => nomatch he)
  refine ends_lookup ((hloop db₁ _).bind (fun _ db₂ ⟨_,rows₂,htables₂,hrows₂⟩ => ?_) fun e _ ⟨he,_⟩ => nomatch he)
  refine ends_lookup ((hloop db₂ _).mono fun r db₃ ⟨hr,rows₃,htables₃,hrows₃⟩ => ⟨hr,rows₃,?_,fun e he => ?_⟩)
  · rw [htables₃,htables₂,htables₁]
  · have he₂ := ((hrows₃ e).mp he).1
    rw [htables₂] at he₂
    obtain ⟨he₁,hreceived⟩ := (hrows₂ e).mp he₂
    rw [htables₁] at he₁
    exact ⟨of_decide_eq_false ((hrows₁ e).mp he₁).2,of_decide_eq_false hreceived⟩

/-- A membership goes with its grants and its places in groups. -/
structure Removed (m : Membership) (db db' : Database) : Prop where
  /-- Other tables. -/
  tables : ∃ members grants places,db'.toTables={db.toTables with
    members := members
    usersCollections := grants
    groupsUsers := places}
  /-- The membership. -/
  members : ∀ q,q∈db'.members ↔ q∈db.members ∧ q.uuid≠m.uuid
  /-- Its grants in the organisation. -/
  grants : ∀ r,r∈db'.usersCollections ↔ r∈db.usersCollections ∧
    ¬(r.userUuid=m.userUuid ∧ knownCollection db.toTables m.orgUuid r.collectionUuid=true)
  /-- Its places. -/
  places : ∀ r,r∈db'.groupsUsers ↔ r∈db.groupsUsers ∧ r.usersOrganizationsUuid≠m.uuid

/-- `Membership::delete` is accepted. -/
theorem ends_removeMember {m : Membership} : Ends (Membership.delete m) db fun r db' => r=.ok () ∧ Removed m db db' := by
  unfold Membership.delete CollectionUser.deleteAllByUserAndOrg GroupUser.deleteAllByMember
  simp only [Script.bind_eq,Script.bind_assoc]
  refine ends_lookup (ends_update (valid_ungrant db.valid) (ends_update (valid_ungroupPlace (valid_ungrant db.valid)) ?_))
  refine ends_update_done (valid_removeMembers (valid_ungroupPlace (valid_ungrant db.valid)) ?_) ⟨rfl,?_⟩
  · intro r hr q _ hkey
    have hother := (List.mem_filter.mp hr).2
    rw [decide_eq_true_eq] at hother ⊢
    rwa [hkey]
  · refine ⟨⟨_,_,_,rfl⟩,fun q => ?_,fun r => ?_,fun r => ?_⟩
    · exact List.mem_filter.trans (and_congr_right fun _ => decide_eq_true_iff)
    · refine List.mem_filter.trans (and_congr_right fun hr => decide_eq_true_iff.trans (not_congr ?_))
      refine and_congr_right fun huser => ⟨fun hmem => ?_,fun hknown => ?_⟩
      · obtain ⟨q,hq,hkey⟩ := List.mem_map.mp hmem
        rw [← hkey]
        exact (mem_findByOrganizationAndUserUuid.mp hq).2.2
      · exact List.mem_map.mpr ⟨r,mem_findByOrganizationAndUserUuid.mpr ⟨hr,huser,hknown⟩,rfl⟩
    · exact List.mem_filter.trans (and_congr_right fun _ => decide_eq_true_iff)

/-- All memberships of an account go, with its grants in these organisations. -/
theorem ends_removeMembers : Ends (Membership.deleteAllByUser user) db fun r db' => r=.ok () ∧
    ∃ members grants places,db'.toTables={db.toTables with
      members := members
      usersCollections := grants
      groupsUsers := places} ∧ (∀ q,q∈members ↔ q∈db.members ∧ q.userUuid≠user) ∧
      ∀ r,r∈grants ↔ r∈db.usersCollections ∧ (r.userUuid=user → ∀ m∈db.members,m.userUuid=user →
        knownCollection db.toTables m.orgUuid r.collectionUuid=false) := by
  unfold Membership.deleteAllByUser
  refine ends_lookup ((ends_each_gone (K:=fun gone s => ∃ members grants places,s.toTables={db.toTables with
      members := members
      usersCollections := grants
      groupsUsers := places} ∧ (∀ q,q∈members ↔ q∈db.members ∧ q∉gone) ∧
      ∀ r,r∈grants ↔ r∈db.usersCollections ∧ ∀ m∈gone,
        ¬(r.userUuid=m.userUuid ∧ knownCollection db.toTables m.orgUuid r.collectionUuid=true))
    ⟨_,_,_,rfl,by simp,by simp⟩ fun gone x rest s hxs ⟨members,grants,places,htables,hmembers,hgrants⟩ => ?_).mono
    fun r db' ⟨hr,members,grants,places,htables,hmembers,hgrants⟩ =>
      ⟨hr,members,grants,places,htables,fun q => (hmembers q).trans ?_,fun g => (hgrants g).trans ?_⟩)
  · have hx : x∈db.members := by
      have hmem : x∈db.members.filter fun m => m.userUuid=user := by
        rw [hxs]
        exact List.mem_append_right _ List.mem_cons_self
      exact (List.mem_filter.mp hmem).1
    refine (ends_removeMember).mono fun r s' ⟨hr,hremoved⟩ => ⟨hr,?_⟩
    obtain ⟨members',grants',places',htables'⟩ := hremoved.tables
    have hleft := hremoved.members
    have hrest := hremoved.grants
    rw [htables'] at hleft hrest
    rw [htables] at hleft hrest
    refine ⟨members',grants',places',by rw [htables',htables],fun q => ?_,fun g => ?_⟩
    · refine (hleft q).trans ?_
      rw [hmembers q,List.mem_append,List.mem_singleton,not_or,and_assoc]
      refine and_congr_right fun hq => and_congr_right fun _ => not_congr ⟨fun hkey => ?_,fun heq => by rw [heq]⟩
      exact eq_of_key db.member_nodup hq hx hkey
    · refine (hrest g).trans ?_
      rw [hgrants g,and_assoc]
      refine and_congr_right fun _ => ⟨fun ⟨hold,hnew⟩ m hm => ?_,fun h => ⟨fun m hm => ?_,?_⟩⟩
      · rcases List.mem_append.mp hm with hm|hm
        · exact hold m hm
        · cases List.mem_singleton.mp hm
          exact hnew
      · exact h m (List.mem_append_left _ hm)
      · exact h x (List.mem_append_right _ (List.mem_singleton.mpr rfl))
  · rw [mem_left,decide_eq_false_iff_not]
  · refine and_congr_right fun _ => ⟨fun h huser m hm hmuser => ?_,fun h m hm hgone => ?_⟩
    · have hmem : m∈db.members.filter fun m => m.userUuid=user := List.mem_filter.mpr ⟨hm,decide_eq_true hmuser⟩
      rw [Bool.eq_false_iff]
      exact fun hknown => h m hmem ⟨huser.trans hmuser.symm,hknown⟩
    · obtain ⟨hm,hmuser⟩ := List.mem_filter.mp hm
      have hmuser := of_decide_eq_true hmuser
      have hno := h (hgone.1.trans hmuser) m hm hmuser
      rw [hno] at hgone
      cases hgone.2

/-- `Cipher::delete` is accepted. -/
theorem ends_removeCipher {c : Cipher} : Ends (Cipher.delete c) db fun r db' => r=.ok () ∧
    ∃ places links attachments favorites,db'.toTables={db.toTables with
      foldersCiphers := places
      ciphersCollections := links
      attachments := attachments
      favorites := favorites
      ciphers := db.ciphers.filter fun q => q.uuid≠c.uuid} := by
  have hattachments : ∀ s : Database,Ends (each (s.attachments.filter fun a => a.cipherUuid=c.uuid) fun a =>
      update "Error deleting attachment" fun t => {t with attachments := t.attachments.filter fun q => q.id≠a.id}) s
      fun r s' => r=.ok () ∧ ∃ rows,s'.toTables={s.toTables with attachments := rows} ∧
        ∀ a∈rows,a.cipherUuid≠c.uuid := by
    intro s
    refine (ends_each_gone (K:=fun gone s' => ∃ rows,s'.toTables={s.toTables with attachments := rows} ∧
      ∀ a,a∈rows ↔ a∈s.attachments ∧ a∉gone) ⟨s.attachments,rfl,by simp⟩ fun gone x rest s₁ hxs hs => ?_).mono
      fun r s' ⟨hr,rows,htables,hrows⟩ => ⟨hr,rows,htables,fun a ha => ?_⟩
    · obtain ⟨rows,htables,hrows⟩ := hs
      have hx : x∈s.attachments := by
        have hmem : x∈s.attachments.filter fun a => a.cipherUuid=c.uuid := by
          rw [hxs]
          exact List.mem_append_right _ List.mem_cons_self
        exact (List.mem_filter.mp hmem).1
      refine ends_update_done (valid_removeAttachments s₁.valid) ⟨rfl,_,?_,mem_gone s.attachment_nodup hx hrows⟩
      dsimp only
      rw [htables]
    · exact of_decide_eq_false ((mem_left).mp ((hrows a).mp ha)).2
  have hother : ∀ {ρ : Type} {rows : List ρ} {ref : ρ → Uuid} {t : Tables},(∀ r∈rows,ref r≠c.uuid) →
      ∀ r∈rows,∀ q∈t.ciphers,q.uuid=ref r → decide (q.uuid≠c.uuid)=true :=
    fun hrows r hr q _ hkey => decide_eq_true (hkey ▸ hrows r hr)
  have hfilter : ∀ {ρ : Type} {rows : List ρ} {ref : ρ → Uuid},∀ r∈rows.filter fun r => ref r≠c.uuid,ref r≠c.uuid :=
    fun r hr => of_decide_eq_true (List.mem_filter.mp hr).2
  unfold Cipher.delete CollectionCipher.deleteAllByCipher
  refine ends_update (valid_unplace db.valid) (ends_update (valid_unlink (valid_unplace db.valid)) (ends_lookup ?_))
  refine (hattachments _).bind (fun _ s ⟨_,rows,htables,hrows⟩ => ?_) fun e _ ⟨he,_⟩ => nomatch he
  refine ends_update (valid_unfavorite s.valid) (ends_update_done ?_ ⟨rfl,s.foldersCiphers,s.ciphersCollections,rows,
    s.favorites.filter fun r => r.cipherUuid≠c.uuid,?_⟩)
  · refine valid_removeCiphers (valid_unfavorite s.valid) (hother ?_) (hother ?_) (hother ?_) (hother hfilter)
    · show ∀ r∈s.ciphersCollections,r.cipherUuid≠c.uuid
      rw [htables]
      exact hfilter
    · show ∀ a∈s.attachments,a.cipherUuid≠c.uuid
      rw [htables]
      exact hrows
    · show ∀ r∈s.foldersCiphers,r.cipherUuid≠c.uuid
      rw [htables]
      exact hfilter
  · dsimp only
    rw [htables]

/-- All ciphers of an account go. -/
theorem ends_removeCiphers : Ends (Cipher.deleteAllByUser user) db fun r db' => r=.ok () ∧
    ∃ places links attachments favorites ciphers,db'.toTables={db.toTables with
      foldersCiphers := places
      ciphersCollections := links
      attachments := attachments
      favorites := favorites
      ciphers := ciphers} ∧ ∀ c,c∈ciphers ↔ c∈db.ciphers ∧ c.userUuid≠some user := by
  unfold Cipher.deleteAllByUser
  refine ends_lookup ((ends_each_gone (K:=fun gone s => ∃ places links attachments favorites ciphers,
    s.toTables={db.toTables with
      foldersCiphers := places
      ciphersCollections := links
      attachments := attachments
      favorites := favorites
      ciphers := ciphers} ∧ ∀ c,c∈ciphers ↔ c∈db.ciphers ∧ c∉gone) ⟨_,_,_,_,_,rfl,by simp⟩
    fun gone x rest s hxs ⟨places,links,attachments,favorites,ciphers,htables,hciphers⟩ => ?_).mono
    fun r db' ⟨hr,places,links,attachments,favorites,ciphers,htables,hciphers⟩ =>
      ⟨hr,places,links,attachments,favorites,ciphers,htables,fun c => (hciphers c).trans ?_⟩)
  · have hx : x∈db.ciphers := by
      have hmem : x∈db.ciphers.filter fun c => c.userUuid=some user := by
        rw [hxs]
        exact List.mem_append_right _ List.mem_cons_self
      exact (List.mem_filter.mp hmem).1
    refine (ends_removeCipher).mono fun r s' ⟨hr,places',links',attachments',favorites',htables'⟩ =>
      ⟨hr,places',links',attachments',favorites',_,?_,mem_gone db.cipher_nodup hx hciphers⟩
    rw [htables',htables]
  · rw [mem_left,decide_eq_false_iff_not]

/-- All folders of an account go. -/
theorem ends_removeFolders : Ends (Folder.deleteAllByUser user) db fun r db' => r=.ok () ∧
    ∃ places folders,db'.toTables={db.toTables with
      foldersCiphers := places
      folders := folders} ∧ ∀ f,f∈folders ↔ f∈db.folders ∧ f.userUuid≠user := by
  unfold Folder.deleteAllByUser
  refine ends_lookup ((ends_each_gone (K:=fun gone s => ∃ places folders,s.toTables={db.toTables with
      foldersCiphers := places
      folders := folders} ∧ ∀ f,f∈folders ↔ f∈db.folders ∧ f∉gone) ⟨_,_,rfl,by simp⟩
    fun gone x rest s hxs ⟨places,folders,htables,hfolders⟩ => ?_).mono
    fun r db' ⟨hr,places,folders,htables,hfolders⟩ => ⟨hr,places,folders,htables,fun f => (hfolders f).trans ?_⟩)
  · have hx : x∈db.folders := by
      have hmem : x∈db.folders.filter fun f => f.userUuid=user := by
        rw [hxs]
        exact List.mem_append_right _ List.mem_cons_self
      exact (List.mem_filter.mp hmem).1
    refine ends_update (valid_unplace s.valid) (ends_update_done (valid_removeFolders (valid_unplace s.valid) ?_)
      ⟨rfl,s.foldersCiphers.filter fun r => r.folderUuid≠x.uuid,folders.filter fun f => f.uuid≠x.uuid,?_,
        mem_gone db.folder_nodup hx hfolders⟩)
    · intro r hr f _ hkey
      exact decide_eq_true (hkey ▸ of_decide_eq_true (List.mem_filter.mp hr).2)
    · dsimp only
      rw [htables]
  · rw [mem_left,decide_eq_false_iff_not]

/-- A confirmed owner who is the last one of an organisation. -/
def lastOwner (t : Tables) (user : Uuid) : Bool :=
  (Membership.findConfirmedByUser t user).any fun m => m.atype=.owner ∧
    ¬1<(Membership.confirmedByOrgAndType t m.orgUuid .owner).length

/-- A grant in an organisation that the account is no member of. -/
def strayGrant (t : Tables) (user : Uuid) : Bool :=
  t.usersCollections.any fun r => r.userUuid=user ∧ ∀ m∈t.members,m.userUuid=user →
    knownCollection t m.orgUuid r.collectionUuid=false

theorem ends_ownersCheck : Ends (each (Membership.findConfirmedByUser db.toTables user) fun m =>
    ensureOtherOwner "Can't delete last owner" (decide (m.atype=.owner)) m.orgUuid) db fun r db' => db'=db ∧
      if lastOwner db.toTables user=true then ∃ e,r=.error e else r=.ok () := by
  have hloop : ∀ ms : List Membership,Ends (each ms fun m =>
      ensureOtherOwner "Can't delete last owner" (decide (m.atype=.owner)) m.orgUuid) db fun r db' => db'=db ∧
      if (ms.any fun m => m.atype=.owner ∧ ¬1<(Membership.confirmedByOrgAndType db.toTables m.orgUuid .owner).length)=
        true then ∃ e,r=.error e else r=.ok () := by
    intro ms
    induction ms with
    | nil => exact Ends.pure ⟨rfl,rfl⟩
    | cons m ms ih =>
      have hfirst : Ends (ensureOtherOwner "Can't delete last owner" (decide (m.atype=.owner)) m.orgUuid) db
          fun r db' => db'=db ∧
            if decide (m.atype=.owner ∧ ¬1<(Membership.confirmedByOrgAndType db.toTables m.orgUuid .owner).length)=
              true then ∃ e,r=.error e else r=.ok () := by
        unfold ensureOtherOwner
        by_cases howner : m.atype=.owner
        · simp only [howner,decide_true,if_true,true_and]
          refine ends_lookup (Ends.ensure_done (fun h => ⟨rfl,?_⟩) fun h => ⟨rfl,?_⟩)
          · rw [if_neg (by simpa using h)]
          · rw [if_pos (by simpa using h)]
            exact ⟨_,rfl⟩
        · simp only [howner,decide_false,false_and,if_neg Bool.false_ne_true]
          exact Ends.pure ⟨rfl,rfl⟩
      rw [List.any_cons]
      refine hfirst.bind (fun _ s ⟨hs,h⟩ => ?_) fun e s ⟨hs,h⟩ => ?_
      · subst hs
        split at h
        · obtain ⟨e,he⟩ := h
          cases he
        · rename_i hgoes
          rw [Bool.not_eq_true] at hgoes
          rw [hgoes,Bool.false_or]
          exact ih
      · subst hs
        split at h
        · rename_i hlast
          rw [hlast,Bool.true_or,if_pos rfl]
          exact ⟨rfl,_,rfl⟩
        · cases h
  exact hloop _

theorem ends_takeInvitation {mail : Text} : Ends (Invitation.take settings mail) db fun r db' => r=.ok () ∧
    ∃ invitations,db'.toTables={db.toTables with invitations := invitations} := by
  unfold Invitation.take
  refine ends_lookup ?_
  split
  · have hdelete : Ends (update "Error deleting invitation" fun t =>
        {t with invitations := t.invitations.filter (·≠settings.toLowercase mail)}) db fun r db' => r=.ok () ∧
          ∃ invitations,db'.toTables={db.toTables with invitations := invitations} :=
      ends_update_done (valid_removeInvitations db.valid) ⟨rfl,_,rfl⟩
    exact hdelete.rescue (fun _ _ h => h) fun e _ ⟨he,_⟩ => nomatch he
  · exact Ends.pure ⟨rfl,_,rfl⟩

/-- What is left where an account was to be deleted. -/
structure Erased (user : Uuid) (db db' : Database) : Prop where
  /-- Its sends go. -/
  sends : ∀ s,s∈db'.sends ↔ s∈db.sends ∧ s.userUuid≠some user
  /-- Its memberships. -/
  members : ∀ m,m∈db'.members ↔ m∈db.members ∧ m.userUuid≠user
  /-- Its ciphers. -/
  ciphers : ∀ c,c∈db'.ciphers ↔ c∈db.ciphers ∧ c.userUuid≠some user
  /-- Its folders. -/
  folders : ∀ f,f∈db'.folders ↔ f∈db.folders ∧ f.userUuid≠user
  /-- The account goes, unless a grant is in the way. -/
  users : ∀ v,v∈db'.users ↔ v∈db.users ∧ (v.uuid=user → strayGrant db.toTables user=true)

/-- `User::delete` erases everything, or the last owner stays. -/
theorem ends_eraseUser {u : User} : Ends (User.delete settings u) db fun r db' =>
    if lastOwner db.toTables u.uuid=true then (∃ e,r=.error e) ∧ db'=db else Erased u.uuid db db' := by
  unfold User.delete
  refine ends_lookup ((ends_ownersCheck).bind (fun _ s ⟨hs,h⟩ => ?_) fun e s ⟨hs,h⟩ => ?_)
  · subst hs
    split at h
    · obtain ⟨e,he⟩ := h
      cases he
    rename_i hnot
    simp only [hnot]
    refine ends_deleteSends.bind (fun _ db₁ ⟨_,sends,htables₁,hsends⟩ => ?_) fun e _ ⟨he,_⟩ => nomatch he
    refine (ends_deleteEmergencyAccess).bind (fun _ db₂ ⟨_,rows,htables₂,hrows⟩ => ?_) fun e _ ⟨he,_⟩ => nomatch he
    refine (ends_removeMembers).bind (fun _ db₃ ⟨_,members,grants,places,htables₃,hmembers,hgrants⟩ => ?_)
      fun e _ ⟨he,_⟩ => nomatch he
    refine (ends_removeCiphers).bind (fun _ db₄ ⟨_,places₁,links,attachments,favorites,ciphers,htables₄,hciphers⟩ => ?_)
      fun e _ ⟨he,_⟩ => nomatch he
    refine ends_update_to (valid_unfavorite db₄.valid) fun db₅ htables₅ => ?_
    refine (ends_removeFolders).bind (fun _ db₆ ⟨_,places₂,folders,htables₆,hfolders⟩ => ?_) fun e _ ⟨he,_⟩ => nomatch he
    refine ends_update_to (valid_removeDevices db₆.valid) fun db₇ htables₇ => ?_
    refine ends_update_to (valid_unfactor db₇.valid) fun db₈ htables₈ => ?_
    refine (ends_takeInvitation).bind (fun _ db₉ ⟨_,invitations,htables₉⟩ => ?_) fun e _ ⟨he,_⟩ => nomatch he
    -- all that was written so far
    rw [htables₁] at htables₂
    rw [htables₂] at htables₃ hmembers hgrants
    rw [htables₃] at htables₄ hciphers
    rw [htables₄] at htables₅
    rw [htables₅] at htables₆ hfolders
    rw [htables₆] at htables₇
    rw [htables₇] at htables₈
    rw [htables₈] at htables₉
    dsimp only at htables₉ hmembers hgrants hciphers hfolders
    have hleft : ∀ db' : Database,db'.sends=sends → db'.members=members → db'.ciphers=ciphers →
        db'.folders=folders → (∀ v,v∈db'.users ↔ v∈s.users ∧ (v.uuid=u.uuid → strayGrant s.toTables u.uuid=true)) →
        Erased u.uuid s db' := by
      intro db' h₁ h₂ h₃ h₄ h₅
      exact ⟨h₁ ▸ hsends,h₂ ▸ hmembers,h₃ ▸ hciphers,h₄ ▸ hfolders,h₅⟩
    have hstray : strayGrant s.toTables u.uuid=true ↔ ∃ r∈db₉.usersCollections,r.userUuid=u.uuid := by
      rw [htables₉]
      unfold strayGrant
      rw [List.any_eq_true]
      refine exists_congr fun r => ?_
      rw [decide_eq_true_eq,hgrants r]
      exact ⟨fun ⟨hr,huser,h⟩ => ⟨⟨hr,fun _ => h⟩,huser⟩,fun ⟨⟨hr,h⟩,huser⟩ => ⟨hr,huser,h huser⟩⟩
    have hbare : Bare db₉.toTables u.uuid := by
      rw [htables₉]
      refine ⟨fun m hm => ((hmembers m).mp hm).2,fun c hc => ((hciphers c).mp hc).2,fun f hf => ?_,
        fun f hf => ((hfolders f).mp hf).2,fun r hr => ?_,fun e he => ((hsends e).mp he).2,hrows,fun d hd => ?_⟩
      · exact of_decide_eq_true (List.mem_filter.mp hf).2
      · exact of_decide_eq_true (List.mem_filter.mp hr).2
      · exact of_decide_eq_true (List.mem_filter.mp hd).2
    cases hgrant : strayGrant s.toTables u.uuid with
    | true =>
      obtain ⟨r,hr,huser⟩ := hstray.mp hgrant
      have hrefused : ¬({db₉.toTables with users := db₉.users.filter fun q => q.uuid≠u.uuid} : Tables).Valid := by
        intro hvalid
        obtain ⟨v,hv,hkey⟩ := hvalid.2.1.2.2.2.1 r hr
        exact of_decide_eq_true (List.mem_filter.mp hv).2 (hkey.trans huser)
      refine (ends_update_refused hrefused).mono fun r db' ⟨hdb,_⟩ => ?_
      subst hdb
      refine hleft _ ?_ ?_ ?_ ?_ fun v => ?_
      all_goals rw [htables₉]
      rw [hgrant]
      exact ⟨fun hv => ⟨hv,fun _ => rfl⟩,And.left⟩
    | false =>
      have hnone : ∀ r∈db₉.usersCollections,r.userUuid≠u.uuid := by
        intro r hr huser
        rw [hstray.mpr ⟨r,hr,huser⟩] at hgrant
        cases hgrant
      refine ends_update_done (valid_removeUser db₉.valid hbare hnone) (hleft _ ?_ ?_ ?_ ?_ fun v => ?_)
      all_goals dsimp only
      all_goals rw [htables₉]
      rw [hgrant,List.mem_filter,decide_eq_true_eq]
      exact and_congr_right fun _ => ⟨fun h heq => absurd heq h,fun h heq => nomatch h heq⟩
  · subst hs
    split at h
    · rename_i hlast
      simp only [hlast,if_true]
      exact ⟨⟨_,rfl⟩,trivial⟩
    · cases h

end Accounts

end NadSafe.RowDeletes
