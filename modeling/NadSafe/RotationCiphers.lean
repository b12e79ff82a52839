import NadSafe.RotationWrites

/-!
# Ciphers in a rotation

The update of a personal cipher in a rotation. Its checks depend on parts of
the rows that no rotation changes, so they give the same answer after any
number of rewritten rows. The attachments that it seals anew are the ones of
its list up to the first that belongs to another cipher.
-/

namespace NadSafe.RotationCiphers

open HostText JsonText TableRows AsyncScript ServerTables AccessQueries StoreScript ServerModels CipherHandlers
open SecondFactors EmergencyHandlers SendHandlers KeyRotation CipherUpdates PlannedScript TableWrites RowImages
open RotationWrites

section Checks

variable {settings : RotationSettings} {db₀ db : Database} {user : Uuid} {φ : Rewriting} {d : CipherData}

/-- When a policy applies to a member. -/
theorem applicable_iff {atype : OrgPolicyType} : applicable db.toTables user atype none=true ↔
    ∃ p∈db.policies,p.atype=atype ∧ ∃ m∈db.members,m.userUuid=user ∧ m.orgUuid=p.orgUuid ∧ m.status=Confirmed ∧
      ¬(MembershipType.admin≤ m.atype) := by
  unfold applicable
  rw [List.any_eq_true]
  constructor
  · rintro ⟨⟨p,m⟩,hpm,hany⟩
    rw [List.mem_filter,List.mem_filter,mem_innerJoin] at hpm
    obtain ⟨⟨⟨hp,-,-⟩,hcols⟩,-⟩ := hpm
    obtain ⟨q,hq,hrole⟩ := (Option.any_eq_true _ _).mp hany
    obtain ⟨hq,huser,horg,hstatus⟩ := findConfirmed_eq_some_iff.mp hq
    exact ⟨p,hp,(of_decide_eq_true hcols).2,q,hq,huser,horg,hstatus,of_decide_eq_true hrole⟩
  · rintro ⟨p,hp,htype,m,hm,huser,horg,hstatus,hrole⟩
    refine ⟨(p,m),?_,?_⟩
    · rw [List.mem_filter,List.mem_filter,mem_innerJoin]
      exact ⟨⟨⟨hp,hm,decide_eq_true ⟨horg,huser⟩⟩,decide_eq_true ⟨.inr hstatus,htype⟩⟩,decide_eq_true nofun⟩
    · exact (Option.any_eq_true _ _).mpr
        ⟨m,findConfirmed_eq_some_iff.mpr ⟨hm,huser,horg,hstatus⟩,decide_eq_true hrole⟩

theorem policyRefusal_eq (h : Rewritten φ db₀ db) :
    policyRefusal db.toTables user d=policyRefusal db₀.toTables user d := by
  have hsame : applicable db.toTables user .personalOwnership none=
      applicable db₀.toTables user .personalOwnership none := by
    rw [Bool.eq_iff_iff,applicable_iff,applicable_iff,h.policies]
    refine exists_congr fun p => and_congr_right fun _ => and_congr_right fun _ => ?_
    constructor
    · rintro ⟨q,hq,hcols⟩
      obtain ⟨m,hm,rfl⟩ := (h.members q).mp hq
      have hcore := φ.member.2 m
      simp only [memberCore,Prod.mk.injEq] at hcore
      rw [hcore.2.1,hcore.2.2.1,hcore.2.2.2.1,hcore.2.2.2.2.1] at hcols
      exact ⟨m,hm,hcols⟩
    · rintro ⟨m,hm,hcols⟩
      refine ⟨φ.member.1 m,h.members.mem hm,?_⟩
      have hcore := φ.member.2 m
      simp only [memberCore,Prod.mk.injEq] at hcore
      rw [hcore.2.1,hcore.2.2.1,hcore.2.2.2.1,hcore.2.2.2.2.1]
      exact hcols
  unfold policyRefusal
  rw [hsame]

theorem folderRefusal_eq (h : Rewritten φ db₀ db) :
    folderRefusal db.toTables user d=folderRefusal db₀.toTables user d := by
  have hfound : ∀ (rows : List Folder) (id : Uuid),(rows.find? fun f => f.uuid=id ∧ f.userUuid=user).isNone=
      !rows.any fun f => decide (f.uuid=id ∧ f.userUuid=user) := by
    intro rows id
    rw [← List.isSome_find?,Option.not_isSome]
  have hsame : ∀ id,db.folders.any (fun f => decide (f.uuid=id ∧ f.userUuid=user))=
      db₀.folders.any fun f => decide (f.uuid=id ∧ f.userUuid=user) := by
    intro id
    refine h.folders.any fun f => ?_
    have hcore := φ.folder.2 f
    simp only [folderCore,Prod.mk.injEq] at hcore
    rw [hcore.1,hcore.2]
  unfold folderRefusal
  simp only [hfound,hsame]

theorem reaches_eq (h : Rewritten φ db₀ db) : reaches settings db user d=reaches settings db₀ user d := by
  have hsame := h.ciphers.any (p:=fun c => ownsCipher user c && decide (d.id=some c.uuid)) fun c => by
    obtain ⟨huuid,howns⟩ := cipher_core user (φ.cipher.2 c)
    rw [huuid,howns]
  unfold reaches
  rw [hsame,policyRefusal_eq h,folderRefusal_eq h]

/-- What is checked of a personal cipher. -/
theorem refusal_personal {c : Cipher} (howns : ownsCipher user c=true) (hid : d.id=some c.uuid)
    (horg : d.organizationId=none) (hc : c∈db.ciphers) :
    refusal settings.toVaultSettings db.toTables user c d false .none=none ↔ reaches settings db user d=true := by
  have hpersonal : c.organizationUuid=none := (of_decide_eq_true howns).2
  have hthere : db.ciphers.any (fun c => ownsCipher user c && decide (d.id=some c.uuid))=true := by
    refine List.any_eq_true.mpr ⟨c,hc,?_⟩
    rw [howns,decide_eq_true hid]
    rfl
  unfold refusal reaches dataRefusal ownerRefusal
  rw [hthere,horg,if_neg fun h => h.1 rfl,if_neg fun h => h.1 hpersonal]
  cases policyRefusal db.toTables user d with
  | some e => simp
  | none => cases notesFit settings.toVaultSettings d <;> cases folderRefusal db.toTables user d <;> simp

end Checks

section Attachments

variable {rows rows' : List Attachment} {cipher : Uuid} {entries : List (Uuid×Attachments2Data)}

/-- Whose attachment an entry names is not changed. -/
theorem ownEntries_eq {f : Change attachmentCore} (h : Images f.1 rows rows') :
    ownEntries rows' cipher entries=ownEntries rows cipher entries := by
  have hsame : ∀ e,foreign rows' cipher e=foreign rows cipher e := by
    intro e
    refine h.any fun a => ?_
    have hcore := f.2 a
    simp only [attachmentCore,Prod.mk.injEq] at hcore
    rw [hcore.1,hcore.2]
  unfold ownEntries
  simp only [hsame]

/-- The attachments after an update are the ones before, sealed anew. -/
theorem images_rewriteAttachments (hkeys : (rows.map Attachment.id).Nodup) :
    Images (sealEntries cipher (ownEntries rows cipher entries)).1 rows (rewriteAttachments cipher entries rows) := by
  induction entries generalizing rows with
  | nil => exact .refl rows
  | cons e rest ih =>
    obtain ⟨id,data⟩ := e
    unfold rewriteAttachments
    cases hfound : rows.find? fun a => a.id=id with
    | none =>
      have hnone : ∀ a∈rows,a.id≠id := by
        intro a ha he
        exact List.find?_eq_none.mp hfound a ha (decide_eq_true he)
      have hown : ownEntries rows cipher ((id,data)::rest)=(id,data)::ownEntries rows cipher rest := by
        unfold ownEntries foreign
        rw [List.takeWhile_cons_of_pos]
        rw [Bool.not_eq_true',List.any_eq_false]
        exact fun a ha h => hnone a ha (of_decide_eq_true h).1
      rw [hown]
      refine (ih hkeys).congr fun a ha => ?_
      have hkept : (sealEntry cipher (id,data)).1 a=a := if_neg fun h => hnone a ha (of_decide_eq_true h).1
      show _=(sealEntries cipher _).1 ((sealEntry cipher (id,data)).1 a)
      rw [hkept]
    | some a =>
      dsimp only
      have ha : a∈rows := List.mem_of_find?_eq_some hfound
      have hnamed : decide (a.id=id)=true := List.find?_some (p:=fun a : Attachment => decide (a.id=id)) hfound
      have hid : a.id=id := of_decide_eq_true hnamed
      by_cases hother : a.cipherUuid≠cipher
      · have hown : ownEntries rows cipher ((id,data)::rest)=[] := by
          unfold ownEntries foreign
          rw [List.takeWhile_cons_of_neg]
          rw [Bool.not_eq_true',Bool.not_eq_false]
          exact List.any_eq_true.mpr ⟨a,ha,decide_eq_true ⟨hid,hother⟩⟩
        rw [if_pos hother,hown]
        exact .refl rows
      · rw [if_neg hother]
        have hcipher : a.cipherUuid=cipher := not_not.mp hother
        have hown : ownEntries rows cipher ((id,data)::rest)=(id,data)::ownEntries rows cipher rest := by
          unfold ownEntries foreign
          rw [List.takeWhile_cons_of_pos]
          rw [Bool.not_eq_true',List.any_eq_false]
          intro q hq h
          obtain ⟨hqid,hqcipher⟩ := of_decide_eq_true h
          rw [eq_of_key hkeys hq ha (hqid.trans hid.symm)] at hqcipher
          exact hqcipher hcipher
        have hone : Images (sealEntry cipher (id,data)).1 rows
            (put Attachment.id {a with akey := some data.key, fileName := data.fileName} rows) := by
          refine images_put (fun a => a.id=id ∧ a.cipherUuid=cipher)
            (fun a => {a with akey := some data.key, fileName := data.fileName}) hkeys ha
            (decide_eq_true ⟨hid,hcipher⟩) (fun q _ hq => ?_) rfl
          exact (of_decide_eq_true hq).1.trans hid.symm
        rw [hown,← ownEntries_eq hone]
        exact hone.trans (ih (nodup_put hkeys))

end Attachments

section Steps

variable {settings : RotationSettings} {db₀ db : Database} {user : Uuid} {φ : Rewriting}

/-- A cipher that the loaded rows do not have. -/
theorem reaches_none {mem : List Cipher} {d : CipherData}
    (hloaded : Loaded (fun c => ownsCipher user c=true) mem db.ciphers) (hnone : ∀ c∈mem,d.id≠some c.uuid) :
    reaches settings db user d=false := by
  unfold reaches
  rw [← any_loaded hloaded,List.any_eq_false.mpr fun c hc hp => hnone c hc (of_decide_eq_true hp)]
  rfl

theorem refused_of_unreached {d : CipherData} (h : reaches settings db₀ user d=false) :
    accepts settings db₀ user (.cipher d)=false ∧ attempted settings db₀ user (.cipher d)=.keep := by
  rw [accepts,attempted,h]
  exact ⟨rfl,rfl⟩

/-- The row of a personal cipher that is saved. -/
theorem updated_personal {d : CipherData} {c : Cipher} {content : Value×Option Value} {now : ℤ}
    (howns : ownsCipher user c=true) (horg : d.organizationId=none) :
    updated settings.toVaultSettings user c d content now=revise settings.toVaultSettings c d content now := by
  obtain ⟨howner,-⟩ := of_decide_eq_true howns
  have hsame : {c with userUuid := some user}=c := by
    rw [← howner]
  unfold updated owned
  rw [horg]
  dsimp only
  rw [hsame]

theorem owns_updated {d : CipherData} {c : Cipher} {content : Value×Option Value} {now : ℤ}
    (howns : ownsCipher user c=true) (horg : d.organizationId=none) :
    ownsCipher user (updated settings.toVaultSettings user c d content now)=true := by
  rw [updated_personal howns horg]
  exact howns

theorem images_updated {d : CipherData} {c : Cipher} {content : Value×Option Value} (h : Rewritten φ db₀ db)
    (howns : ownsCipher user c=true) (hsome : d.id=some c.uuid) (horg : d.organizationId=none) (hc : c∈db.ciphers)
    (hcontent : d.content=.ok content) : Images (change settings db₀ user (.cipher d)).cipher.1 db.ciphers
      (put Cipher.uuid (updated settings.toVaultSettings user c d content db.now) db.ciphers) := by
  rw [updated_personal howns horg,h.now]
  have hsaved : (d.content.toOption.map fun content => revise settings.toVaultSettings c d content db₀.now).getD c=
      revise settings.toVaultSettings c d content db₀.now := by
    rw [hcontent]
    rfl
  have himages := images_put (fun c => ownsCipher user c && decide (d.id=some c.uuid))
    (fun c => (d.content.toOption.map fun content => revise settings.toVaultSettings c d content db₀.now).getD c)
    db.cipher_nodup hc ?_ (fun q _ hq => ?_) ?_
  · rw [hsaved] at himages
    exact himages
  · rw [howns,decide_eq_true hsome]
    rfl
  · rw [Bool.and_eq_true,decide_eq_true_eq,hsome] at hq
    exact (Option.some.inj hq.2).symm
  · rw [hsaved]
    rfl

/-- A cipher is updated. -/
theorem step_cipher {mem : List Cipher} {d : CipherData} (h : Rewritten φ db₀ db)
    (huser : ∃ u∈db₀.users,u.uuid=user) (horg : d.organizationId=none)
    (hloaded : Loaded (fun c => ownsCipher user c=true) mem db.ciphers) :
    Step settings db₀ user Cipher.uuid (fun c => ownsCipher user c=true) Tables.ciphers mem db (.cipher d)
      (findNamed "Cipher doesn't exist" Cipher.uuid d.id mem)
      (fun saved => updateCipherFromData settings.toVaultSettings user saved d none .none) := by
  cases hid : d.id with
  | none =>
    have hunreached : reaches settings db₀ user d=false := by
      refine (reaches_eq h).symm.trans (reaches_none hloaded fun c _ => ?_)
      rw [hid]
      exact nofun
    obtain ⟨hrefused,hnothing⟩ := refused_of_unreached hunreached
    exact .missing _ rfl hrefused hnothing
  | some id =>
    rcases findRow_cases "Cipher doesn't exist" (fun c : Cipher => c.uuid=id) mem with
      ⟨c,hc,hnamed,hfound⟩|⟨hfound,hnone⟩
    · obtain ⟨hrow,howns⟩ := (hloaded c).mp hc
      obtain ⟨howner,-⟩ := of_decide_eq_true howns
      have hsome : d.id=some c.uuid := hid.trans (congrArg some (of_decide_eq_true hnamed).symm)
      have hchecks : refusal settings.toVaultSettings db.toTables user c d false .none=none ↔
          reaches settings db₀ user d=true := by
        rw [← reaches_eq h]
        exact refusal_personal howns hsome horg hrow
      have hthere : ∃ u∈db.users,u.uuid=user := by
        rw [h.users]
        exact huser
      have hsealed : Images (sealAttachments db₀.attachments d).1 db.attachments
          (rewriteAttachments c.uuid (d.attachments2.getD []) db.attachments) := by
        unfold sealAttachments
        rw [hsome]
        dsimp only
        rw [← ownEntries_eq h.attachments]
        exact images_rewriteAttachments db.attachment_nodup
      have hdrawn : c.uuid<db.next := db.valid.2.2.2.2.2.2.2.1 c hrow
      refine .taken c hfound ((ends_updateCipher hthere hdrawn).mono fun r db' hdone => ?_)
      cases hdone with
      | refused hrefusal =>
        have hunreached : reaches settings db₀ user d=false := by
          rw [Bool.eq_false_iff,Ne,← hchecks]
          intro hnone
          cases hnone.symm.trans hrefusal
        obtain ⟨hrefused,hnothing⟩ := refused_of_unreached hunreached
        refine ⟨hrefused,?_⟩
        rw [hnothing]
        exact Rewritten.refl db
      | broken hrefusal hcontent htables =>
        have hreached := hchecks.mp hrefusal
        refine ⟨?_,?_⟩
        · rw [accepts,hreached,hcontent]
          rfl
        · rw [attempted,if_pos hreached]
          refine ⟨?_,?_,?_,?_,?_,?_,by rw [htables],by rw [htables],by rw [htables]⟩
          all_goals rw [htables]
          · exact .refl _
          · exact .refl _
          · exact .refl _
          · exact .refl _
          · exact hsealed
          · exact .refl _
      | saved hrefusal hcontent htables =>
        have hreached := hchecks.mp hrefusal
        refine ⟨?_,⟨?_,?_,?_,?_,?_,?_,by rw [htables],by rw [htables],by rw [htables]⟩,?_⟩
        · rw [accepts,hreached,hcontent]
          rfl
        all_goals rw [htables]
        · exact .refl _
        · exact .refl _
        · exact .refl _
        · exact .refl _
        · exact hsealed
        · exact images_updated h howns hsome horg hrow hcontent
        · exact loaded_replace hloaded hc updated_uuid (owns_updated howns horg)
    · have hunreached : reaches settings db₀ user d=false := by
        refine (reaches_eq h).symm.trans (reaches_none hloaded fun c hc hsome => ?_)
        rw [hid] at hsome
        exact absurd (decide_eq_true (Option.some.inj hsome).symm) (List.any_eq_false.mp hnone c hc)
      obtain ⟨hrefused,hnothing⟩ := refused_of_unreached hunreached
      exact .missing _ hfound hrefused hnothing

end Steps

end NadSafe.RotationCiphers
