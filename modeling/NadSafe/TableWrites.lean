import NadSafe.ServerModels
import NadSafe.PlannedScript

/-!
# Saves that are accepted

A save of a row is accepted if the rows that it names exist and its unique
columns are its own. A handler that runs alone then ends with the tables that
its saves leave.
-/

namespace NadSafe.TableWrites

open HostText TableRows AsyncScript ServerTables StoreScript ServerModels PlannedScript

section Rows

variable {ρ τ κ : Type} [DecidableEq κ] {k : ρ → κ} {r : ρ} {rows : List ρ} {targets : List τ}
  {key : τ → Uuid}

theorem forall_put {P : ρ → Prop} (h : ∀ q∈rows,P q) (hr : P r) : ∀ q∈put k r rows,P q := by
  intro q hq
  rcases mem_put.mp hq with rfl|hq
  · exact hr
  · exact h q hq.1

/-- A row with a new key comes last. -/
theorem put_fresh (h : ∀ q∈rows,k q≠k r) : put k r rows=rows++[r] := by
  rw [put,List.filter_eq_self.mpr fun q hq => decide_eq_true (h q hq)]

/-- A column that is unique stays so. -/
theorem nodup_put_column {ι : Type} {f : ρ → ι} (h : (rows.map f).Nodup)
    (hr : ∀ q∈rows,f q=f r → k q=k r) : ((put k r rows).map f).Nodup := by
  have hrest : ((rows.filter fun q => k q≠k r).map f).Nodup := h.sublist (List.filter_sublist.map f)
  rw [put,List.map_append,List.nodup_append]
  refine ⟨hrest,by simp,?_⟩
  rintro a ha b hb rfl
  obtain ⟨q,hq,rfl⟩ := List.mem_map.mp ha
  obtain ⟨hq,hkey⟩ := List.mem_filter.mp hq
  simp only [List.map_cons,List.map_nil,List.mem_singleton,decide_eq_true_eq] at hb hkey
  exact hkey (hr q hq hb)

/-- A row is itself a key. -/
theorem nodup_put_id [DecidableEq ρ] (h : rows.Nodup) : (put id r rows).Nodup := by
  have hkeys : (rows.map id).Nodup := by rwa [List.map_id]
  have hput := nodup_put (r:=r) hkeys
  rwa [List.map_id] at hput

theorem refers_put {ref : ρ → Uuid} (h : Refers rows ref targets key) (hr : ∃ t∈targets,key t=ref r) :
    Refers (put k r rows) ref targets key := forall_put h hr

theorem mayRefer_put {ref : ρ → Option Uuid} (h : MayRefer rows ref targets key)
    (hr : ref r=none ∨ ∃ t∈targets,ref r=some (key t)) : MayRefer (put k r rows) ref targets key :=
  forall_put h hr

/-- A save removes no key. -/
theorem exists_key_put {t x : τ} (h : t∈targets) : ∃ y∈put key x targets,key y=key t := by
  by_cases ht : key t=key x
  · exact ⟨x,mem_put.mpr (.inl rfl),ht.symm⟩
  · exact ⟨t,mem_put.mpr (.inr ⟨h,ht⟩),rfl⟩

theorem refers_target {ref : ρ → Uuid} {x : τ} (h : Refers rows ref targets key) :
    Refers rows ref (put key x targets) key := by
  intro r hr
  obtain ⟨t,ht,href⟩ := h r hr
  obtain ⟨y,hy,hkey⟩ := exists_key_put ht
  exact ⟨y,hy,hkey.trans href⟩

theorem mayRefer_target {ref : ρ → Option Uuid} {x : τ} (h : MayRefer rows ref targets key) :
    MayRefer rows ref (put key x targets) key := by
  intro r hr
  rcases h r hr with hnone|⟨t,ht,href⟩
  · exact .inl hnone
  · obtain ⟨y,hy,hkey⟩ := exists_key_put ht
    exact .inr ⟨y,hy,href.trans (congrArg some hkey.symm)⟩

theorem refers_filter {ref : ρ → Uuid} {keep : ρ → Bool} (h : Refers rows ref targets key) :
    Refers (rows.filter keep) ref targets key := fun r hr => h r (List.mem_filter.mp hr).1

end Rows

section Saves

variable {t : Tables}

theorem valid_folder {f : Folder} (h : t.Valid) (hdrawn : f.uuid<t.next)
    (huser : ∃ u∈t.users,u.uuid=f.userUuid) : {t with folders := put Folder.uuid f t.folders}.Valid := by
  obtain ⟨hkeys,hlinks,hrows⟩ := h
  unfold Tables.Keyed at hkeys
  unfold Tables.Linked at hlinks
  unfold Tables.Drawn at hrows
  casesm* _ ∧ _
  refine ⟨?_,?_,?_⟩
  all_goals and_intros
  all_goals first
    | assumption
    | exact nodup_put ‹_›
    | exact refers_target ‹_›
    | exact refers_put ‹_› huser
    | exact forall_put ‹_› hdrawn

theorem valid_emergencyAccess {e : EmergencyAccess} (h : t.Valid) (hdrawn : e.uuid<t.next)
    (hgrantor : ∃ u∈t.users,u.uuid=e.grantorUuid)
    (hgrantee : e.granteeUuid=none ∨ ∃ u∈t.users,e.granteeUuid=some u.uuid) :
    {t with emergencyAccess := put EmergencyAccess.uuid e t.emergencyAccess}.Valid := by
  obtain ⟨hkeys,hlinks,hrows⟩ := h
  unfold Tables.Keyed at hkeys
  unfold Tables.Linked at hlinks
  unfold Tables.Drawn at hrows
  casesm* _ ∧ _
  refine ⟨?_,?_,?_⟩
  all_goals and_intros
  all_goals first
    | assumption
    | exact nodup_put ‹_›
    | exact refers_put ‹_› hgrantor
    | exact mayRefer_put ‹_› hgrantee
    | exact forall_put ‹_› hdrawn

theorem valid_member {m : Membership} (h : t.Valid) (hdrawn : m.uuid<t.next)
    (huser : ∃ u∈t.users,u.uuid=m.userUuid) (horg : ∃ o∈t.organizations,o.uuid=m.orgUuid)
    (hunique : ∀ q∈t.members,(q.userUuid,q.orgUuid)=(m.userUuid,m.orgUuid) → q.uuid=m.uuid) :
    {t with members := put Membership.uuid m t.members}.Valid := by
  obtain ⟨hkeys,hlinks,hrows⟩ := h
  unfold Tables.Keyed at hkeys
  unfold Tables.Linked at hlinks
  unfold Tables.Drawn at hrows
  casesm* _ ∧ _
  refine ⟨?_,?_,?_⟩
  all_goals and_intros
  all_goals first
    | assumption
    | exact nodup_put ‹_›
    | exact nodup_put_column ‹_› hunique
    | exact refers_target ‹_›
    | exact refers_put ‹_› huser
    | exact refers_put ‹_› horg
    | exact forall_put ‹_› hdrawn

theorem valid_send {s : Send} (h : t.Valid) (hdrawn : s.uuid<t.next)
    (huser : s.userUuid=none ∨ ∃ u∈t.users,s.userUuid=some u.uuid)
    (horg : s.organizationUuid=none ∨ ∃ o∈t.organizations,s.organizationUuid=some o.uuid) :
    {t with sends := put Send.uuid s t.sends}.Valid := by
  obtain ⟨hkeys,hlinks,hrows⟩ := h
  unfold Tables.Keyed at hkeys
  unfold Tables.Linked at hlinks
  unfold Tables.Drawn at hrows
  casesm* _ ∧ _
  refine ⟨?_,?_,?_⟩
  all_goals and_intros
  all_goals first
    | assumption
    | exact nodup_put ‹_›
    | exact mayRefer_put ‹_› huser
    | exact mayRefer_put ‹_› horg
    | exact forall_put ‹_› hdrawn

theorem valid_attachment {a : Attachment} (h : t.Valid) (hdrawn : a.id<t.next)
    (hcipher : ∃ c∈t.ciphers,c.uuid=a.cipherUuid) :
    {t with attachments := put Attachment.id a t.attachments}.Valid := by
  obtain ⟨hkeys,hlinks,hrows⟩ := h
  unfold Tables.Keyed at hkeys
  unfold Tables.Linked at hlinks
  unfold Tables.Drawn at hrows
  casesm* _ ∧ _
  refine ⟨?_,?_,?_⟩
  all_goals and_intros
  all_goals first
    | assumption
    | exact nodup_put ‹_›
    | exact refers_put ‹_› hcipher
    | exact forall_put ‹_› hdrawn

/-- Attachments may be removed. -/
theorem valid_removeAttachments {keep : Attachment → Bool} (h : t.Valid) :
    {t with attachments := t.attachments.filter keep}.Valid := by
  obtain ⟨hkeys,hlinks,hrows⟩ := h
  unfold Tables.Keyed at hkeys
  unfold Tables.Linked at hlinks
  unfold Tables.Drawn at hrows
  casesm* _ ∧ _
  refine ⟨?_,?_,?_⟩
  all_goals and_intros
  all_goals first
    | assumption
    | exact (‹(t.attachments.map Attachment.id).Nodup›).sublist (List.filter_sublist.map _)
    | exact refers_filter ‹_›
    | exact fun a ha => (‹∀ a∈t.attachments,a.id<t.next›) a (List.mem_filter.mp ha).1

/-- Sends may be removed. -/
theorem valid_removeSends {keep : Send → Bool} (h : t.Valid) : {t with sends := t.sends.filter keep}.Valid := by
  obtain ⟨hkeys,hlinks,hrows⟩ := h
  unfold Tables.Keyed at hkeys
  unfold Tables.Linked at hlinks
  unfold Tables.Drawn at hrows
  casesm* _ ∧ _
  refine ⟨?_,?_,?_⟩
  all_goals and_intros
  all_goals first
    | assumption
    | exact (‹(t.sends.map Send.uuid).Nodup›).sublist (List.filter_sublist.map _)
    | exact fun s hs => ‹MayRefer t.sends Send.userUuid t.users User.uuid› s (List.mem_filter.mp hs).1
    | exact fun s hs => ‹MayRefer t.sends Send.organizationUuid t.organizations Organization.uuid› s (List.mem_filter.mp hs).1
    | exact fun s hs => (‹∀ s∈t.sends,s.uuid<t.next›) s (List.mem_filter.mp hs).1

theorem valid_cipher {c : Cipher} (h : t.Valid) (hdrawn : c.uuid<t.next)
    (huser : c.userUuid=none ∨ ∃ u∈t.users,c.userUuid=some u.uuid)
    (horg : c.organizationUuid=none ∨ ∃ o∈t.organizations,c.organizationUuid=some o.uuid) :
    {t with ciphers := put Cipher.uuid c t.ciphers}.Valid := by
  obtain ⟨hkeys,hlinks,hrows⟩ := h
  unfold Tables.Keyed at hkeys
  unfold Tables.Linked at hlinks
  unfold Tables.Drawn at hrows
  casesm* _ ∧ _
  refine ⟨?_,?_,?_⟩
  all_goals and_intros
  all_goals first
    | assumption
    | exact nodup_put ‹_›
    | exact refers_target ‹_›
    | exact mayRefer_put ‹_› huser
    | exact mayRefer_put ‹_› horg
    | exact forall_put ‹_› hdrawn

theorem valid_user {u : User} (h : t.Valid) (hdrawn : u.uuid<t.next)
    (hunique : ∀ q∈t.users,q.email=u.email → q.uuid=u.uuid) :
    {t with users := put User.uuid u t.users}.Valid := by
  obtain ⟨hkeys,hlinks,hrows⟩ := h
  unfold Tables.Keyed at hkeys
  unfold Tables.Linked at hlinks
  unfold Tables.Drawn at hrows
  casesm* _ ∧ _
  refine ⟨?_,?_,?_⟩
  all_goals and_intros
  all_goals first
    | assumption
    | exact nodup_put ‹_›
    | exact nodup_put_column ‹_› hunique
    | exact refers_target ‹_›
    | exact mayRefer_target ‹_›
    | exact forall_put ‹_› hdrawn

theorem valid_device {d : Device} (h : t.Valid) (huser : ∃ u∈t.users,u.uuid=d.userUuid) :
    {t with devices := put Device.key d t.devices}.Valid := by
  obtain ⟨hkeys,hlinks,hrows⟩ := h
  unfold Tables.Keyed at hkeys
  unfold Tables.Linked at hlinks
  unfold Tables.Drawn at hrows
  casesm* _ ∧ _
  refine ⟨?_,?_,?_⟩
  all_goals and_intros
  all_goals first
    | assumption
    | exact nodup_put ‹_›
    | exact refers_put ‹_› huser

/-- A cipher is put into a folder. -/
theorem valid_place {r : FolderCipher} (h : t.Valid) (hcipher : ∃ c∈t.ciphers,c.uuid=r.cipherUuid)
    (hfolder : ∃ f∈t.folders,f.uuid=r.folderUuid) :
    {t with foldersCiphers := put id r t.foldersCiphers}.Valid := by
  obtain ⟨hkeys,hlinks,hrows⟩ := h
  unfold Tables.Keyed at hkeys
  unfold Tables.Linked at hlinks
  unfold Tables.Drawn at hrows
  casesm* _ ∧ _
  refine ⟨?_,?_,?_⟩
  all_goals and_intros
  all_goals first
    | assumption
    | exact nodup_put_id ‹_›
    | exact refers_put ‹_› hcipher
    | exact refers_put ‹_› hfolder

/-- And taken out. -/
theorem valid_unplace {keep : FolderCipher → Bool} (h : t.Valid) :
    {t with foldersCiphers := t.foldersCiphers.filter keep}.Valid := by
  obtain ⟨hkeys,hlinks,hrows⟩ := h
  unfold Tables.Keyed at hkeys
  unfold Tables.Linked at hlinks
  unfold Tables.Drawn at hrows
  casesm* _ ∧ _
  refine ⟨?_,?_,?_⟩
  all_goals and_intros
  all_goals first
    | assumption
    | exact List.Nodup.filter _ ‹_›
    | exact refers_filter ‹_›

/-- A cipher becomes a favourite. -/
theorem valid_favorite {r : Favorite} (h : t.Valid) (huser : ∃ u∈t.users,u.uuid=r.userUuid)
    (hcipher : ∃ c∈t.ciphers,c.uuid=r.cipherUuid) :
    {t with favorites := put id r t.favorites}.Valid := by
  obtain ⟨hkeys,hlinks,hrows⟩ := h
  unfold Tables.Keyed at hkeys
  unfold Tables.Linked at hlinks
  unfold Tables.Drawn at hrows
  casesm* _ ∧ _
  refine ⟨?_,?_,?_⟩
  all_goals and_intros
  all_goals first
    | assumption
    | exact nodup_put_id ‹_›
    | exact refers_put ‹_› huser
    | exact refers_put ‹_› hcipher

/-- And no longer. -/
theorem valid_unfavorite {keep : Favorite → Bool} (h : t.Valid) :
    {t with favorites := t.favorites.filter keep}.Valid := by
  obtain ⟨hkeys,hlinks,hrows⟩ := h
  unfold Tables.Keyed at hkeys
  unfold Tables.Linked at hlinks
  unfold Tables.Drawn at hrows
  casesm* _ ∧ _
  refine ⟨?_,?_,?_⟩
  all_goals and_intros
  all_goals first
    | assumption
    | exact List.Nodup.filter _ ‹_›
    | exact refers_filter ‹_›

/-- A cipher is linked to a collection. -/
theorem valid_link {r : CollectionCipher} (h : t.Valid) (hcipher : ∃ c∈t.ciphers,c.uuid=r.cipherUuid)
    (hcollection : ∃ k∈t.collections,k.uuid=r.collectionUuid) :
    {t with ciphersCollections := put id r t.ciphersCollections}.Valid := by
  obtain ⟨hkeys,hlinks,hrows⟩ := h
  unfold Tables.Keyed at hkeys
  unfold Tables.Linked at hlinks
  unfold Tables.Drawn at hrows
  casesm* _ ∧ _
  refine ⟨?_,?_,?_⟩
  all_goals and_intros
  all_goals first
    | assumption
    | exact nodup_put_id ‹_›
    | exact refers_put ‹_› hcipher
    | exact refers_put ‹_› hcollection

/-- And taken out. -/
theorem valid_unlink {keep : CollectionCipher → Bool} (h : t.Valid) :
    {t with ciphersCollections := t.ciphersCollections.filter keep}.Valid := by
  obtain ⟨hkeys,hlinks,hrows⟩ := h
  unfold Tables.Keyed at hkeys
  unfold Tables.Linked at hlinks
  unfold Tables.Drawn at hrows
  casesm* _ ∧ _
  refine ⟨?_,?_,?_⟩
  all_goals and_intros
  all_goals first
    | assumption
    | exact List.Nodup.filter _ ‹_›
    | exact refers_filter ‹_›

/-- A grant to an account. -/
theorem valid_grant {r : CollectionUser} (h : t.Valid) (huser : ∃ u∈t.users,u.uuid=r.userUuid)
    (hcollection : ∃ k∈t.collections,k.uuid=r.collectionUuid) :
    {t with usersCollections := put CollectionUser.key r t.usersCollections}.Valid := by
  obtain ⟨hkeys,hlinks,hrows⟩ := h
  unfold Tables.Keyed at hkeys
  unfold Tables.Linked at hlinks
  unfold Tables.Drawn at hrows
  casesm* _ ∧ _
  refine ⟨?_,?_,?_⟩
  all_goals and_intros
  all_goals first
    | assumption
    | exact nodup_put ‹_›
    | exact refers_put ‹_› huser
    | exact refers_put ‹_› hcollection

/-- And taken back. -/
theorem valid_ungrant {keep : CollectionUser → Bool} (h : t.Valid) :
    {t with usersCollections := t.usersCollections.filter keep}.Valid := by
  obtain ⟨hkeys,hlinks,hrows⟩ := h
  unfold Tables.Keyed at hkeys
  unfold Tables.Linked at hlinks
  unfold Tables.Drawn at hrows
  casesm* _ ∧ _
  refine ⟨?_,?_,?_⟩
  all_goals and_intros
  all_goals first
    | assumption
    | exact (‹(t.usersCollections.map CollectionUser.key).Nodup›).sublist (List.filter_sublist.map _)
    | exact refers_filter ‹_›

/-- A member joins a group. -/
theorem valid_groupPlace {r : GroupUser} (h : t.Valid) (hgroup : ∃ g∈t.groups,g.uuid=r.groupsUuid)
    (hmember : ∃ m∈t.members,m.uuid=r.usersOrganizationsUuid) :
    {t with groupsUsers := put id r t.groupsUsers}.Valid := by
  obtain ⟨hkeys,hlinks,hrows⟩ := h
  unfold Tables.Keyed at hkeys
  unfold Tables.Linked at hlinks
  unfold Tables.Drawn at hrows
  casesm* _ ∧ _
  refine ⟨?_,?_,?_⟩
  all_goals and_intros
  all_goals first
    | assumption
    | exact nodup_put_id ‹_›
    | exact refers_put ‹_› hgroup
    | exact refers_put ‹_› hmember

/-- And leaves it. -/
theorem valid_ungroupPlace {keep : GroupUser → Bool} (h : t.Valid) :
    {t with groupsUsers := t.groupsUsers.filter keep}.Valid := by
  obtain ⟨hkeys,hlinks,hrows⟩ := h
  unfold Tables.Keyed at hkeys
  unfold Tables.Linked at hlinks
  unfold Tables.Drawn at hrows
  casesm* _ ∧ _
  refine ⟨?_,?_,?_⟩
  all_goals and_intros
  all_goals first
    | assumption
    | exact List.Nodup.filter _ ‹_›
    | exact refers_filter ‹_›

theorem valid_collection {k : Collection} (h : t.Valid) (hdrawn : k.uuid<t.next)
    (horg : ∃ o∈t.organizations,o.uuid=k.orgUuid) :
    {t with collections := put Collection.uuid k t.collections}.Valid := by
  obtain ⟨hkeys,hlinks,hrows⟩ := h
  unfold Tables.Keyed at hkeys
  unfold Tables.Linked at hlinks
  unfold Tables.Drawn at hrows
  casesm* _ ∧ _
  refine ⟨?_,?_,?_⟩
  all_goals and_intros
  all_goals first
    | assumption
    | exact nodup_put ‹_›
    | exact refers_target ‹_›
    | exact refers_put ‹_› horg
    | exact forall_put ‹_› hdrawn

theorem valid_group {g : Group} (h : t.Valid) (hdrawn : g.uuid<t.next)
    (horg : ∃ o∈t.organizations,o.uuid=g.organizationsUuid) :
    {t with groups := put Group.uuid g t.groups}.Valid := by
  obtain ⟨hkeys,hlinks,hrows⟩ := h
  unfold Tables.Keyed at hkeys
  unfold Tables.Linked at hlinks
  unfold Tables.Drawn at hrows
  casesm* _ ∧ _
  refine ⟨?_,?_,?_⟩
  all_goals and_intros
  all_goals first
    | assumption
    | exact nodup_put ‹_›
    | exact refers_target ‹_›
    | exact refers_put ‹_› horg
    | exact forall_put ‹_› hdrawn

/-- A row that is left was there before or is the saved one. -/
theorem mem_saved {f g : TwoFactor} {rows : List TwoFactor} (h : g∈TwoFactor.saved f rows) :
    g=f ∨ g∈rows ∧ g.key≠f.key ∧ g.uuid≠f.uuid := by
  rcases mem_put.mp h with rfl|⟨hg,huuid⟩
  · exact .inl rfl
  · obtain ⟨hg,hkey⟩ := List.mem_filter.mp hg
    rw [decide_eq_true_eq] at hkey
    exact .inr ⟨hg,fun he => hkey (Prod.mk.inj he),huuid⟩

/-- And every other row with another key is left, if its number is its own. -/
theorem mem_saved_of_ne {f g : TwoFactor} {rows : List TwoFactor} (hg : g∈rows) (hkey : g.key≠f.key)
    (huuid : g.uuid≠f.uuid) : g∈TwoFactor.saved f rows := by
  refine mem_put.mpr (.inr ⟨List.mem_filter.mpr ⟨hg,?_⟩,huuid⟩)
  rw [decide_eq_true_eq]
  exact fun he => hkey (Prod.ext he.1 he.2)

theorem valid_twofactor {f : TwoFactor} (h : t.Valid) (hdrawn : f.uuid<t.next)
    (huser : ∃ u∈t.users,u.uuid=f.userUuid) :
    {t with twofactor := TwoFactor.saved f t.twofactor}.Valid := by
  obtain ⟨hkeys,hlinks,hrows⟩ := h
  unfold Tables.Keyed at hkeys
  unfold Tables.Linked at hlinks
  unfold Tables.Drawn at hrows
  casesm* _ ∧ _
  have hnumbers := ‹(t.twofactor.map ServerTables.TwoFactor.uuid).Nodup›
  have hcolumn := ‹(t.twofactor.map ServerTables.TwoFactor.key).Nodup›
  have hkeyed : ((TwoFactor.saved f t.twofactor).map ServerTables.TwoFactor.key).Nodup := by
    refine nodup_put_column (hcolumn.sublist (List.filter_sublist.map _)) fun q hq he => ?_
    obtain ⟨-,hkey⟩ := List.mem_filter.mp hq
    rw [decide_eq_true_eq] at hkey
    exact absurd (Prod.mk.inj he) hkey
  refine ⟨?_,?_,?_⟩
  all_goals and_intros
  all_goals first
    | assumption
    | exact refers_put (refers_filter ‹_›) huser
    | exact forall_put (fun q hq => ‹∀ f∈t.twofactor,f.uuid<t.next› q (List.mem_of_mem_filter hq)) hdrawn
    | exact nodup_put (hnumbers.sublist (List.filter_sublist.map _))

/-- Factors may be removed. -/
theorem valid_unfactor {keep : TwoFactor → Bool} (h : t.Valid) :
    {t with twofactor := t.twofactor.filter keep}.Valid := by
  obtain ⟨hkeys,hlinks,hrows⟩ := h
  unfold Tables.Keyed at hkeys
  unfold Tables.Linked at hlinks
  unfold Tables.Drawn at hrows
  casesm* _ ∧ _
  refine ⟨?_,?_,?_⟩
  all_goals and_intros
  all_goals first
    | assumption
    | exact refers_filter ‹_›
    | exact fun q hq => ‹∀ f∈t.twofactor,f.uuid<t.next› q (List.mem_of_mem_filter hq)
    | exact (‹(t.twofactor.map ServerTables.TwoFactor.uuid).Nodup›).sublist (List.filter_sublist.map _)
    | exact (‹(t.twofactor.map ServerTables.TwoFactor.key).Nodup›).sublist (List.filter_sublist.map _)

end Saves

section Statements

variable {α β : Type} {db : Database} {P : Except String α → Database → Prop}

/-- A statement that is accepted. -/
theorem ends_update {message : String} {f : Tables → Tables} {g : Unit → Action α}
    (hvalid : (f db.toTables).Valid) (h : Ends (g ()) ⟨f db.toTables,hvalid⟩ P) :
    Ends ((update message f).bind g) db P := Ends.execute (commit_valid hvalid) h

/-- The same, for a state of which only the tables matter. -/
theorem ends_update_to {message : String} {f : Tables → Tables} {g : Unit → Action α}
    (hvalid : (f db.toTables).Valid) (h : ∀ db' : Database,db'.toTables=f db.toTables → Ends (g ()) db' P) :
    Ends ((update message f).bind g) db P := ends_update hvalid (h _ rfl)

theorem ends_lookup {f : Tables → β} {g : β → Action α} (h : Ends (g (f db.toTables)) db P) :
    Ends ((lookup f).bind g) db P := Ends.query h

/-- The same at the end. -/
theorem ends_update_done {message : String} {f : Tables → Tables} {P : Except String Unit → Database → Prop}
    (hvalid : (f db.toTables).Valid) (h : P (.ok ()) ⟨f db.toTables,hvalid⟩) :
    Ends (update message f) db P := Ends.execute_done (commit_valid hvalid) h

/-- A statement that breaks a constraint. -/
theorem ends_update_refused {message : String} {f : Tables → Tables} (h : ¬(f db.toTables).Valid) :
    Ends (update message f) db fun r db' => db'=db ∧ ∃ e,r=.error e :=
  Ends.execute_refused (dif_neg h)

theorem complete_refused {message : String} {f : Tables → Tables} (h : ¬(f db.toTables).Valid) :
    complete (update message f) db=(.error message,db) := by
  have hnone : commit (f db.toTables)=none := dif_neg h
  show complete (if (commit (f db.toTables)).isSome=true then Script.done () else Script.fail message)
    ((commit (f db.toTables)).getD db)=_
  rw [hnone]
  rfl

/-- A statement that may be refused. -/
theorem ends_update_end {message : String} {f : Tables → Tables} {P : Except String Unit → Database → Prop}
    (haccepted : ∀ db' : Database,db'.toTables=f db.toTables → P (.ok ()) db')
    (hrefused : P (.error message) db) : Ends (update message f) db P := by
  by_cases hvalid : (f db.toTables).Valid
  · exact ends_update_done hvalid (haccepted ⟨_,hvalid⟩ rfl)
  · unfold Ends
    rw [complete_refused hvalid]
    exact hrefused

/-- The rest after such a statement. -/
theorem ends_update_cases {message : String} {f : Tables → Tables} {g : Unit → Action α}
    (haccepted : ∀ db' : Database,db'.toTables=f db.toTables → Ends (g ()) db' P)
    (hrefused : P (.error message) db) : Ends ((update message f).bind g) db P := by
  have hfirst : Ends (update message f) db
      fun r db' => r=.ok () ∧ db'.toTables=f db.toTables ∨ r=.error message ∧ db'=db :=
    ends_update_end (fun db' h => .inl ⟨rfl,h⟩) (.inr ⟨rfl,rfl⟩)
  refine hfirst.bind (fun _ db' h => ?_) fun e db' h => ?_
  · rcases h with ⟨-,h⟩|⟨h,-⟩
    · exact haccepted db' h
    · cases h
  · rcases h with ⟨h,-⟩|⟨h,rfl⟩
    · cases h
    · cases h
      exact hrefused

end Statements

end NadSafe.TableWrites
