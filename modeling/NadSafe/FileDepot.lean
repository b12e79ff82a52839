import NadSafe.PartScript
import NadSafe.ServerModels

/-!
# The database and the stored files

Uploaded files lie beside the database, each under its path. A statement
writes one table or one file. Only the lengths of files are kept.
-/

namespace NadSafe.FileDepot

open TableRows AsyncScript ServerTables StoreScript ServerModels PlannedScript PartScript

variable {κ : Type}

/-- The database and the files. -/
structure Depot (κ : Type) where
  /-- The database. -/
  database : Database
  /-- Length of the file under each path. -/
  files : List (κ×ℕ)

/-- The database as a part. -/
def databasePart : Part (Depot κ) Database where
  get d := d.database
  set d db := {d with database := db}
  get_set _ _ := rfl
  set_set _ _ _ := rfl
  set_get _ := rfl

/-- Statements to the database only. -/
def inDatabase {α : Type} (p : Action α) : Handler (Depot κ) String α := within databasePart p

variable [DecidableEq κ]

/-- `save_temp_file`. -/
def saveTempFile (path : κ) (length : ℕ) (overwrite : Bool) : Handler (Depot κ) String Unit :=
  execute "ConditionNotMatch" fun d =>
    if overwrite=true ∨ path∉d.files.map Prod.fst then some {d with files := put Prod.fst (path,length) d.files}
    else none

/-- `Operator::delete`, which does not miss a file that is not there. -/
def deleteFiles (gone : κ → Bool) : Handler (Depot κ) String Unit :=
  execute "Error deleting file" fun d => some {d with files := d.files.filter fun f => !gone f.1}

section Rules

variable {α : Type} {P : Except String α → Depot κ → Prop} {d : Depot κ}

omit [DecidableEq κ] in
/-- The database ends as it would alone, and the files stay. -/
theorem ends_inDatabase {p : Action α} (h : Ends p d.database fun r db => P r {d with database := db}) :
    Ends (inDatabase p) d P := Ends.within h

omit [DecidableEq κ] in
/-- The same with something after it. -/
theorem ends_inDatabase_bind {β : Type} {p : Action β} {f : β → Handler (Depot κ) String α}
    {Q : Except String β → Database → Prop} (h : Ends p d.database Q)
    (hok : ∀ b db,Q (.ok b) db → Ends (f b) {d with database := db} P)
    (herror : ∀ e db,Q (.error e) db → P (.error e) {d with database := db}) : Ends ((inDatabase p).bind f) d P := by
  have hpart : Ends (inDatabase p) d fun r d' => ∃ db,d'={d with database := db} ∧ Q r db :=
    ends_inDatabase (h.mono fun r db hq => ⟨db,rfl,hq⟩)
  refine hpart.bind (fun b d' ⟨db,hd,hq⟩ => ?_) fun e d' ⟨db,hd,hq⟩ => ?_
  · subst hd
    exact hok b db hq
  · subst hd
    exact herror e db hq

omit [DecidableEq κ] in
/-- The same for a part that only reads. -/
theorem ends_reads {β : Type} {p : Action β} {f : β → Handler (Depot κ) String α} {Q : Except String β → Prop}
    (h : Ends p d.database fun r db => db=d.database ∧ Q r) (hok : ∀ b,Q (.ok b) → Ends (f b) d P)
    (herror : ∀ e,Q (.error e) → P (.error e) d) : Ends ((inDatabase p).bind f) d P := by
  refine ends_inDatabase_bind h (fun b db ⟨hdb,hq⟩ => ?_) fun e db ⟨hdb,hq⟩ => ?_
  · subst hdb
    exact hok b hq
  · subst hdb
    exact herror e hq

/-- A file that may be overwritten is stored. -/
theorem ends_saveTempFile {path : κ} {length : ℕ} {g : Unit → Handler (Depot κ) String α}
    (h : Ends (g ()) {d with files := put Prod.fst (path,length) d.files} P) :
    Ends ((saveTempFile path length true).bind g) d P := Ends.execute (if_pos (.inl rfl)) h

/-- A file that may not be overwritten is stored where there is none. -/
theorem ends_saveTempFile_new {path : κ} {length : ℕ} {P : Except String Unit → Depot κ → Prop}
    (hnew : path∉d.files.map Prod.fst → P (.ok ()) {d with files := put Prod.fst (path,length) d.files})
    (hexists : ∀ e,P (.error e) d) : Ends (saveTempFile path length false) d P := by
  by_cases hpath : path∈d.files.map Prod.fst
  · have hrefused : ¬(false=true ∨ path∉d.files.map Prod.fst) := fun he =>
      he.elim (fun hf => Bool.false_ne_true hf) fun hnot => hnot hpath
    have hend : Ends (saveTempFile path length false) d fun r d' => d'=d ∧ ∃ e,r=.error e :=
      Ends.execute_refused (if_neg hrefused)
    refine hend.mono fun r d' ⟨hd,e,he⟩ => ?_
    rw [hd,he]
    exact hexists e
  · exact Ends.execute_done (if_pos (.inr hpath)) (hnew hpath)

omit [DecidableEq κ] in
theorem ends_deleteFiles {gone : κ → Bool} {P : Except String Unit → Depot κ → Prop}
    (h : P (.ok ()) {d with files := d.files.filter fun f => !gone f.1}) : Ends (deleteFiles gone) d P :=
  Ends.execute_done rfl h

end Rules

end NadSafe.FileDepot
