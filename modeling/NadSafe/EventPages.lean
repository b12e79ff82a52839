import NadSafe.EventLog

/-!
# What a listing of events shows

Whoever follows the tokens of the answers comes to an end exactly if no 30
events of the range share a date in whole microseconds. Then every event of
the range is listed, at most twice, except for one that a page leaves out and
that lies past the beginning of the microsecond in which the page ends. Events
that are logged or handed in between the requests change nothing about this,
but 30 of one date that a client has handed in keep the listing from ending.
-/

namespace NadSafe.EventPages

open HostText TableRows ServerTables CipherHandlers AccessQueries CursorPages EventLog

theorem cuts_microsecond : Cuts microsecond where
  le d := by
    unfold microsecond
    omega
  again d := by
    unfold microsecond
    omega
  mono d d' h := by
    unfold microsecond
    omega

section Joins

variable {α β : Type}

/-- A join with a table of at most one partner for each row filters the rows. -/
theorem map_fst_innerJoin {rows : List α} {table : List β} {on : α → β → Bool} {p : α×β → Bool}
    (hone : ∀ a,(table.filter (on a)).length ≤ 1) :
    ((innerJoin rows table on).filter p).map Prod.fst=rows.filter fun a => table.any fun b => on a b && p (a,b) := by
  unfold innerJoin
  induction rows with
  | nil => rfl
  | cons a rows ih =>
    rw [List.flatMap_cons,List.filter_append,List.map_append,ih,List.filter_cons]
    have hany : (table.any fun b => on a b && p (a,b))=(table.filter (on a)).any fun b => p (a,b) :=
      List.any_filter.symm
    rw [hany]
    rcases hpartners : table.filter (on a) with _|⟨b,_|⟨c,others⟩⟩
    · rfl
    · cases hp : p (a,b) <;> simp [hp]
    · have hlength := hone a
      rw [hpartners] at hlength
      simp at hlength

/-- A key has at most one row. -/
theorem length_filter_key {κ : Type} [DecidableEq κ] {key : β → κ} {table : List β} (h : (table.map key).Nodup) (k : κ) :
    (table.filter fun b => key b=k).length ≤ 1 := by
  rw [← List.countP_eq_length_filter]
  have hcount := List.nodup_iff_count_le_one.mp h k
  rw [List.count_eq_countP,List.countP_map] at hcount
  refine le_trans (le_of_eq (List.countP_congr fun b _ => ?_)) hcount
  simp

end Joins

theorem mem_events {q : EventQuery} {t : Tables} {start : ℤ} {rows : List Event} {e : Event} :
    e∈q.events t start rows ↔ e∈rows ∧ q.selects t e=true ∧ start ≤ e.eventDate := by
  unfold EventQuery.events
  rw [List.mem_filter,Bool.and_eq_true,decide_eq_true_eq]

theorem sorted_found {q : EventQuery} {t : Tables} {start : ℤ} {rows table : List Event} (hrows : rows.Perm table)
    (finish : ℤ) : Sorted Event.eventDate (q.events t start table) finish (q.found t start rows finish) where
  descending := by
    have hsorted : (q.found t start rows finish).Pairwise fun x y => decide (y.eventDate ≤ x.eventDate)=true := by
      unfold EventQuery.found latest
      refine List.pairwise_mergeSort (fun x y z hxy hyz => ?_) (fun x y => ?_) _
      · rw [decide_eq_true_eq] at hxy hyz ⊢
        omega
      · rw [Bool.or_eq_true,decide_eq_true_eq,decide_eq_true_eq]
        omega
    exact hsorted.imp fun h => of_decide_eq_true h
  perm := (List.mergeSort_perm _ _).trans ((hrows.filter _).filter _)

section Answers

variable {s : EventSettings} {db : Database} {rows : List Event} {q : EventQuery} {data : EventRange} {start finish : ℤ}

/-- The dates of a request that can be read. -/
theorem dates_of_parse (hstart : s.parseFromRfc3339 data.start=some start)
    (hfinish : s.parseFromRfc3339 (data.continuationToken.getD data.finish)=some finish) :
    data.dates s.toDateText=.ok (start,finish) := by
  unfold EventRange.dates DateText.parseDate
  rw [hstart,hfinish]
  rfl

/-- A granted request is answered with a page of what it reads. -/
theorem answer_granted (henabled : s.orgEventsEnabled=true) (hgranted : q.granted db.toTables=true)
    (hstart : s.parseFromRfc3339 data.start=some start)
    (hfinish : s.parseFromRfc3339 (data.continuationToken.getD data.finish)=some finish) :
    q.answer s db.toTables rows data=
      .ok (.of (((q.found db.toTables start rows finish).take PAGE_SIZE).map (Event.toJson s.toDateText))) := by
  have hdates := dates_of_parse hstart hfinish
  cases q with
  | ofOrg org headersOrg =>
    have hsame : org=headersOrg := of_decide_eq_true hgranted
    have hfound : Event.findByOrganizationUuid rows org start finish=
        ((EventQuery.ofOrg org headersOrg).found db.toTables start rows finish).take PAGE_SIZE := by
      unfold Event.findByOrganizationUuid EventQuery.found EventQuery.events EventQuery.selects
      rw [List.filter_filter]
      congr 3
      funext e
      grind
    change getOrgEvents s rows org headersOrg data=_
    unfold getOrgEvents
    rw [if_neg (not_not.mpr hsame),if_pos henabled,hdates,← hfound]
    rfl
  | ofCipher cipher user =>
    have hfound : Event.findByCipherUuid rows cipher start finish=
        ((EventQuery.ofCipher cipher user).found db.toTables start rows finish).take PAGE_SIZE := by
      unfold Event.findByCipherUuid EventQuery.found EventQuery.events EventQuery.selects
      rw [List.filter_filter]
      congr 3
      funext e
      grind
    change getCipherEvents s db.toTables rows cipher user data=_
    unfold getCipherEvents
    rw [if_pos ⟨henabled,hgranted⟩,hdates,← hfound]
    rfl
  | ofUser org member headersOrg =>
    have hsame : org=headersOrg := of_decide_eq_true hgranted
    have hfound : Event.findByOrgAndMember db.toTables rows org member start finish=
        ((EventQuery.ofUser org member headersOrg).found db.toTables start rows finish).take PAGE_SIZE := by
      unfold Event.findByOrgAndMember EventQuery.found EventQuery.events EventQuery.selects
      dsimp only
      rw [map_fst_innerJoin fun _ => length_filter_key db.member_nodup member,List.filter_filter]
      congr 3
      funext e
      rw [Bool.eq_iff_iff]
      simp only [List.any_eq_true,Bool.and_eq_true,decide_eq_true_eq]
      constructor
      · rintro ⟨m,hm,hmember,horg,hafter,hbefore,huser⟩
        exact ⟨hbefore,⟨horg,m,hm,hmember,huser⟩,hafter⟩
      · rintro ⟨hbefore,⟨horg,m,hm,hmember,huser⟩,hafter⟩
        exact ⟨m,hm,hmember,horg,hafter,hbefore,huser⟩
    change getUserEvents s db.toTables rows org member headersOrg data=_
    unfold getUserEvents
    rw [if_neg (not_not.mpr hsame),if_pos henabled,hdates,← hfound]
    rfl

/-- The token of a page. -/
theorem continuationToken_of (dates : DateText) (page : List Event) :
    (EventPage.of (page.map (Event.toJson dates))).continuationToken=
      if page.length=PAGE_SIZE then page.getLast?.map fun e => dates.formatDate e.eventDate else none := by
  unfold EventPage.of getContinuationToken
  rw [List.length_map,List.getLast?_map,Option.map_map]
  rfl

end Answers

section Listing

variable {s : EventSettings} {q : EventQuery} {db : ℕ → Database} {T : ℕ → EventTable} {rows : ℕ → List Event}
  {data : EventRange} {start finish : ℤ}

/-- The answers to the requests of a listing. -/
def answers (s : EventSettings) (q : EventQuery) (db : ℕ → Database) (rows : ℕ → List Event) (data : EventRange)
    (i : ℕ) (continuation : Option Text) : Except String EventPage :=
  q.answer s (db i).toTables (rows i) {data with continuationToken := continuation}

/-- The pages of events that the requests read. -/
def readings (q : EventQuery) (db : ℕ → Database) (rows : ℕ → List Event) (start : ℤ) (fuel i : ℕ) (bound : ℤ) :
    List (List Event)×Bool :=
  pages Event.eventDate microsecond PAGE_SIZE (fun i => q.found (db i).toTables start (rows i)) fuel i bound

/-- The answers show the pages, as long as RFC 3339 can name the dates. -/
theorem listing_eq (hreads : s.toDateText.Reads) (henabled : s.orgEventsEnabled=true)
    (hgranted : ∀ i,q.granted (db i).toTables=true) (hstart : s.parseFromRfc3339 data.start=some start)
    (hnamed : Named start) {fuel i : ℕ} {continuation : Option Text} {bound : ℤ} (hbound : Named bound ∨ bound<start)
    (hfinish : s.parseFromRfc3339 (continuation.getD data.finish)=some bound) :
    listing (answers s q db rows data) fuel i continuation=
      ((readings q db rows start fuel i bound).1.map (List.map (Event.toJson s.toDateText)),
        (readings q db rows start fuel i bound).2) := by
  induction fuel generalizing i continuation bound with
  | zero => rfl
  | succ fuel ih =>
    have hanswer : answers s q db rows data i continuation=.ok (.of (((q.found (db i).toTables start (rows i) bound).take
        PAGE_SIZE).map (Event.toJson s.toDateText))) := answer_granted henabled (hgranted i) hstart hfinish
    have hcontinuation := continuationToken_of s.toDateText ((q.found (db i).toTables start (rows i) bound).take PAGE_SIZE)
    unfold listing readings
    rw [hanswer]
    dsimp only
    rw [hcontinuation]
    cases htoken : token Event.eventDate microsecond PAGE_SIZE
        ((q.found (db i).toTables start (rows i) bound).take PAGE_SIZE) with
    | none =>
      rw [pages_last htoken]
      unfold token at htoken
      split at htoken
      · rw [Option.map_eq_none_iff] at htoken
        rw [if_pos ‹_›,htoken]
        rfl
      · rw [if_neg ‹_›]
        rfl
    | some next =>
      rw [pages_next htoken]
      obtain ⟨hlength,y,hy,hnext⟩ := token_eq_some htoken
      rw [if_pos hlength,hy]
      dsimp only [Option.map_some]
      have hsorted : Sorted Event.eventDate (q.events (db i).toTables start (rows i)) bound
          (q.found (db i).toTables start (rows i) bound) := sorted_found (List.Perm.refl _) bound
      obtain ⟨hmem,hle⟩ := hsorted.of_take (List.mem_of_getLast? hy)
      have hafter := ((mem_events).mp hmem).2.2
      have hdate : Named y.eventDate := by
        unfold Named at hnamed hbound ⊢
        omega
      have hcut : Named next ∨ next<start := by
        rw [← hnext]
        unfold Named microsecond at *
        omega
      have hparse : s.parseFromRfc3339 ((some (s.formatDate y.eventDate)).getD data.finish)=some next := by
        rw [← hnext]
        exact hreads _ hdate
      have hrest := ih (i:=i+1) hcut hparse
      rw [hrest]
      rfl

end Listing

section Runs

variable {s : EventSettings} {t : Tables} {T : EventTable}

theorem sublist_adds (events : List Event) : T.rows.Sublist (events.foldl EventTable.add T).rows := by
  induction events generalizing T with
  | nil => exact List.Sublist.refl _
  | cons event events ih => exact (List.sublist_append_left T.rows _).trans (ih (T:=T.add event))

theorem sublist_collected (caller : Caller) (event : EventCollection) (eventDate : ℤ) :
    T.rows.Sublist (collected t caller T event eventDate).rows := by
  unfold collected
  split
  · exact sublist_adds _
  split
  · split
    · exact List.sublist_append_left T.rows _
    · exact List.Sublist.refl _
  · split
    · exact List.sublist_append_left T.rows _
    · exact List.Sublist.refl _

theorem sublist_collect (caller : Caller) (data : List EventCollection) :
    T.rows.Sublist (collect t caller s.toDateText data T).1.rows := by
  induction data generalizing T with
  | nil => exact List.Sublist.refl _
  | cons event rest ih =>
    unfold collect
    split
    · exact List.Sublist.refl _
    · exact (sublist_collected caller event _).trans ih

/-- A change adds events or removes those before a date. -/
theorem run_cases (op : LogOp) : T.rows.Sublist (op.run s t T).rows ∨
    ∃ now days,op=.clean now ∧ s.eventsDaysRetain=some days ∧
      (op.run s t T).rows=T.rows.filter fun e => !decide (e.eventDate<now-days*86400*1000000000) := by
  cases op with
  | logUser caller eventType clock =>
    left
    change T.rows.Sublist (logUserEvent t caller T s eventType clock).rows
    unfold logUserEvent
    split
    · exact sublist_adds _
    · exact List.Sublist.refl _
  | log caller eventType source org now =>
    left
    change T.rows.Sublist (logEvent caller T s eventType source org now).rows
    unfold logEvent
    split
    · exact List.sublist_append_left T.rows _
    · exact List.Sublist.refl _
  | collect caller data =>
    left
    change T.rows.Sublist (postEventsCollect t caller T s data).1.rows
    unfold postEventsCollect
    split
    · exact sublist_collect caller data
    · exact List.Sublist.refl _
  | clean now =>
    change T.rows.Sublist (Event.cleanEvents T s now).rows ∨ _
    cases hdays : s.eventsDaysRetain with
    | none =>
      left
      unfold Event.cleanEvents
      rw [hdays]
    | some days =>
      right
      refine ⟨now,days,rfl,rfl,?_⟩
      change (Event.cleanEvents T s now).rows=_
      unfold Event.cleanEvents
      rw [hdays]
      rfl

/-- The events of one date grow in number, unless they are cleaned up. -/
theorem countP_run {op : LogOp} {d : ℤ} (hkeeps : Keeps s d op) (p : Event → Bool)
    (hp : ∀ e,p e=true → e.eventDate=d) : T.rows.countP p ≤ (op.run s t T).rows.countP p := by
  rcases run_cases (s:=s) (t:=t) (T:=T) op with hsublist|⟨now,days,rfl,hdays,hrows⟩
  · exact hsublist.countP_le
  · rw [hrows,List.countP_filter]
    refine le_of_eq (List.countP_congr fun e _ => ?_)
    have hlimit := hkeeps now days rfl hdays
    have hdate := hp e
    simp only [Bool.and_eq_true,Bool.not_eq_true',decide_eq_false_iff_not]
    exact ⟨fun h => ⟨h,by have := hdate h; omega⟩,fun h => h.1⟩

theorem countP_runs {ops : List LogOp} {d : ℤ} (hkeeps : ∀ op∈ops,Keeps s d op) (p : Event → Bool)
    (hp : ∀ e,p e=true → e.eventDate=d) :
    T.rows.countP p ≤ (ops.foldl (fun T op => op.run s t T) T).rows.countP p := by
  induction ops generalizing T with
  | nil => exact le_rfl
  | cons op ops ih =>
    exact (countP_run (hkeeps op List.mem_cons_self) p hp).trans
      (ih fun op hop => hkeeps op (List.mem_cons_of_mem _ hop))

end Runs

/-- Requests while events are logged, handed in and cleaned up. -/
structure Logged (s : EventSettings) (db : ℕ → Database) (T : ℕ → EventTable) (rows : ℕ → List Event)
    (ops : ℕ → List LogOp) : Prop where
  /-- Between two requests. -/
  next : ∀ i,T (i+1)=(ops i).foldl (fun T op => op.run s (db i).toTables T) (T i)
  /-- A request reads the rows in any order. -/
  rows : ∀ i,(rows i).Perm (T i).rows

section Results

variable {s : EventSettings} {q : EventQuery} {db : ℕ → Database} {T : ℕ → EventTable} {rows : ℕ → List Event}
  {ops : ℕ → List LogOp} {data : EventRange} {start finish : ℤ}

theorem Logged.countP_le (h : Logged s db T rows ops) {d : ℤ} (hkeeps : ∀ i,∀ op∈ops i,Keeps s d op) (p : Event → Bool)
    (hp : ∀ e,p e=true → e.eventDate=d) (i : ℕ) : (T 0).rows.countP p ≤ (rows i).countP p := by
  rw [(h.rows i).countP_eq]
  induction i with
  | zero => exact le_rfl
  | succ i ih =>
    rw [h.next i]
    exact ih.trans (countP_runs (hkeeps i) p hp)

theorem Logged.mem (h : Logged s db T rows ops) {e : Event} (hkeeps : ∀ i,∀ op∈ops i,Keeps s e.eventDate op)
    (he : e∈(T 0).rows) (i : ℕ) : e∈(rows i) := by
  have hcount := h.countP_le hkeeps (fun x => decide (x=e)) (fun x hx => by rw [of_decide_eq_true hx]) i
  have hpos : 0<(T 0).rows.countP fun x => decide (x=e) :=
    List.countP_pos_iff.mpr ⟨e,he,decide_eq_true rfl⟩
  obtain ⟨x,hx,hsame⟩ := List.countP_pos_iff.mp (hpos.trans_le hcount)
  rw [← of_decide_eq_true hsame]
  exact hx

/-- The events of one date that a listing can show. -/
theorem shared_events {t : Tables} {table : List Event} {d : ℤ} (hd : start ≤ d) :
    shared Event.eventDate (q.events t start table) d=
      table.countP fun e => q.selects t e && decide (e.eventDate=d) := by
  unfold shared EventQuery.events
  rw [List.countP_filter]
  refine List.countP_congr fun e _ => ?_
  simp only [Bool.and_eq_true,decide_eq_true_eq]
  constructor
  · rintro ⟨hdate,hselected,-⟩
    exact ⟨hselected,hdate⟩
  · rintro ⟨hselected,hdate⟩
    exact ⟨hdate,hselected,hdate ▸ hd⟩

/-- Whoever follows the tokens comes to an end exactly if fewer than 30 events
of the listing share each date in whole microseconds. The pages then show the
events of the range, at most twice, except those that a page leaves out: they
lie in the microsecond in which it ends, past its beginning. -/
theorem events_listed {table : EventTable} (hreads : s.toDateText.Reads) (henabled : s.orgEventsEnabled=true)
    {db : Database} (hgranted : q.granted db.toTables=true) (hrows : ∀ i,(rows i).Perm table.rows)
    (hstart : s.parseFromRfc3339 data.start=some start) (hfinish : s.parseFromRfc3339 data.finish=some finish)
    (hfirst : Named start) (hlast : Named finish) :
    ((∃ fuel,(listing (answers s q (fun _ => db) rows data) fuel 0 none).2=true) ↔
      ∀ d,start ≤ d → d ≤ finish → microsecond d=d →
        table.rows.countP (fun e => q.selects db.toTables e && decide (e.eventDate=d))<PAGE_SIZE) ∧
    ∀ fuel,(listing (answers s q (fun _ => db) rows data) fuel 0 none).2=true →
      ∃ ps : List (List Event),
        (listing (answers s q (fun _ => db) rows data) fuel 0 none).1=ps.map (List.map (Event.toJson s.toDateText)) ∧
        (∀ e,(∃ p∈ps,e∈p) ↔ e∈table.rows ∧ q.selects db.toTables e=true ∧ start ≤ e.eventDate ∧
          e.eventDate ≤ finish ∧ ¬∃ p∈ps,Lost Event.eventDate microsecond PAGE_SIZE p e) ∧
        ∀ e,ps.flatten.count e ≤ 2 := by
  have hlisting : ∀ fuel,listing (answers s q (fun _ => db) rows data) fuel 0 none=_ := fun fuel =>
    listing_eq hreads henabled (fun _ => hgranted) hstart hfirst (.inl hlast) hfinish
  have hread : ∀ i bound,Sorted Event.eventDate (q.events db.toTables start table.rows) bound
      (q.found db.toTables start (rows i) bound) := fun i bound => sorted_found (hrows i) bound
  have hends : (∃ fuel,(listing (answers s q (fun _ => db) rows data) fuel 0 none).2=true) ↔
      ∀ d ≤ finish,microsecond d=d → shared Event.eventDate (q.events db.toTables start table.rows) d<PAGE_SIZE := by
    simp only [hlisting]
    exact pages_ending_iff cuts_microsecond (by decide) hread
  constructor
  · rw [hends]
    constructor
    · intro h d hd hle hcoarse
      rw [← shared_events hd]
      exact h d hle hcoarse
    · intro h d hle hcoarse
      by_cases hd : start ≤ d
      · rw [shared_events hd]
        exact h d hd hle hcoarse
      · -- nothing before the range is read
        have hnone : shared Event.eventDate (q.events db.toTables start table.rows) d=0 := by
          refine List.countP_eq_zero.mpr fun e he => ?_
          have hafter := (mem_events.mp he).2.2
          rw [decide_eq_true_eq]
          omega
        rw [hnone]
        decide
  · intro fuel hend
    have hshared := hends.mp ⟨fuel,hend⟩
    rw [hlisting] at hend ⊢
    refine ⟨_,rfl,fun e => ?_,fun e => ?_⟩
    · constructor
      · rintro ⟨p,hp,he⟩
        obtain ⟨hle,-,-,hmem⟩ := of_mem_pages cuts_microsecond hread hp he
        obtain ⟨hrow,hselected,hafter⟩ := mem_events.mp hmem
        refine ⟨hrow,hselected,hafter,hle,?_⟩
        rintro ⟨p',hp',hlost⟩
        exact lost_not_mem cuts_microsecond hread hp' hlost hp he
      · rintro ⟨hrow,hselected,hafter,hle,hkept⟩
        have hmem : e∈q.events db.toTables start table.rows := mem_events.mpr ⟨hrow,hselected,hafter⟩
        rcases mem_pages (by decide) hread (fun _ => hmem) hend hle with h|h
        · exact h
        · exact absurd h hkept
    · have hnodup : (q.events db.toTables start table.rows).Nodup := table.nodup.of_map.filter _
      refine (count_pages_le cuts_microsecond hread hnodup hshared e).trans ?_
      split
      · decide
      split <;> decide

/-- Events that a client hands in about an organisation are saved. -/
theorem countP_collect {t : Tables} {caller : Caller} {org : Uuid} {d : ℤ} {handed : List EventCollection}
    {table : EventTable} (hparse : ∀ c∈handed,(s.parseFromRfc3339 c.date).isSome=true) :
    table.rows.countP (fun e => decide (e.orgUuid=some org) && decide (e.eventDate=d))+
        handed.countP (About s org d) ≤
      (collect t caller s.toDateText handed table).1.rows.countP fun e =>
        decide (e.orgUuid=some org) && decide (e.eventDate=d) := by
  induction handed generalizing table with
  | nil => exact le_rfl
  | cons c rest ih =>
    obtain ⟨date,hdate⟩ := Option.isSome_iff_exists.mp (hparse c List.mem_cons_self)
    have hstep : collect t caller s.toDateText (c::rest) table=
        collect t caller s.toDateText rest (collected t caller table c date) := by
      rw [collect]
      unfold DateText.parseDate
      rw [hdate]
      rfl
    have hrest := @ih (collected t caller table c date) fun c hc => hparse c (List.mem_cons_of_mem _ hc)
    have hone : table.rows.countP (fun e => decide (e.orgUuid=some org) && decide (e.eventDate=d))+
        (if About s org d c=true then 1 else 0) ≤ (collected t caller table c date).rows.countP fun e =>
          decide (e.orgUuid=some org) && decide (e.eventDate=d) := by
      split
      · have habout : 1600 ≤ c.type ∧ c.type ≤ 1699 ∧ c.organizationId=some org ∧ s.parseFromRfc3339 c.date=some d :=
          of_decide_eq_true ‹_›
        obtain ⟨hlow,hhigh,horg,hd⟩ := habout
        rw [hdate] at hd
        cases hd
        unfold collected
        rw [if_neg (by omega),if_pos ⟨hlow,hhigh⟩,horg]
        dsimp only
        unfold logEventImpl EventTable.add
        rw [List.countP_append]
        have habout : ∀ e : Event,(e.about org).eventDate=e.eventDate := by
          intro e
          unfold Event.about
          split_ifs <;> rfl
        simp [habout,Event.new]
      · exact (sublist_collected caller c date).countP_le
    rw [hstep,List.countP_cons]
    omega

/-- A client that has handed in 30 events of one date in whole microseconds
about an organisation, of which it need not be a member, keeps the listing of
the organisation from ending. -/
theorem listing_endless (hreads : s.toDateText.Reads) (henabled : s.orgEventsEnabled=true)
    (hlogged : Logged s db T rows ops) {t : Tables} {caller : Caller} {table : EventTable}
    {handed : List EventCollection} (hhanded : T 0=(postEventsCollect t caller table s handed).1)
    (hparse : ∀ c∈handed,(s.parseFromRfc3339 c.date).isSome=true) {org : Uuid} {d : ℤ} (hcoarse : microsecond d=d)
    (hmany : PAGE_SIZE ≤ handed.countP (About s org d)) (hkeeps : ∀ i,∀ op∈ops i,Keeps s d op)
    (hstart : s.parseFromRfc3339 data.start=some start) (hfinish : s.parseFromRfc3339 data.finish=some finish)
    (hfirst : Named start) (hlast : Named finish) (hd : start ≤ d) (hle : d ≤ finish) (fuel : ℕ) :
    (listing (answers s (.ofOrg org org) db rows data) fuel 0 none).2=false := by
  have hread : ∀ i bound,Sorted Event.eventDate ((EventQuery.ofOrg org org).events (db i).toTables start (rows i)) bound
      ((EventQuery.ofOrg org org).found (db i).toTables start (rows i) bound) :=
    fun i bound => sorted_found (List.Perm.refl _) bound
  have hlisting : listing (answers s (.ofOrg org org) db rows data) fuel 0 none=_ :=
    listing_eq (q:=.ofOrg org org) hreads henabled (fun _ => decide_eq_true rfl) hstart hfirst (.inl hlast) hfinish
  rw [hlisting]
  refine pages_not_ending cuts_microsecond (by decide) hread hcoarse (fun i => ?_) hle
  rw [shared_events hd]
  have hcount := hlogged.countP_le hkeeps (fun e => decide (e.orgUuid=some org) && decide (e.eventDate=d))
    (fun e he => by simpa using (Bool.and_eq_true_iff.mp he).2) i
  have hcollect := @countP_collect s t caller org d handed table hparse
  rw [hhanded] at hcount
  unfold postEventsCollect at hcount
  rw [if_pos henabled] at hcount
  refine hmany.trans (le_trans ?_ hcount)
  omega

end Results

section Samples

/-- The first date of 1970. -/
def epochText : Text := "1970-01-01T00:00:00.000000Z".toList

/-- Dates that are not the first one are written with strokes. -/
def strokes (d : ℤ) : Text := (if d<0 then '-' else '+')::List.replicate d.natAbs '1'

/-- The first date of 1970, and strokes for the others. -/
def epochDates : DateText where
  formatDate d := if microsecond d=0 then epochText else strokes (microsecond d)
  parseFromRfc3339 date :=
    if date=epochText then some 0
    else match date with
      | '+'::rest => some rest.length
      | '-'::rest => some (-rest.length)
      | _ => none

theorem epochDates_reads : epochDates.Reads := by
  intro d _
  unfold epochDates
  dsimp only
  split
  · rw [if_pos rfl]
    simp only [*]
  · have hother : ∀ n : ℤ,strokes n≠epochText := by
      intro n h
      unfold strokes epochText at h
      split at h <;> cases (List.cons.inj h).1
    rw [if_neg (hother _)]
    unfold strokes
    by_cases hsign : microsecond d<0
    · rw [if_pos hsign]
      simp only [List.length_replicate]
      congr 1
      omega
    · rw [if_neg hsign]
      simp only [List.length_replicate]
      congr 1
      omega

/-- Events are logged and kept. -/
def epochSettings : EventSettings := {epochDates with orgEventsEnabled := true, eventsDaysRetain := none}

/-- The range of the first date. -/
def epochRange : EventRange := ⟨epochText,epochText,none⟩

/-- No events. -/
def noEvents : EventTable where
  rows := []
  next := 0
  fresh := by simp
  nodup := by simp

/-- What a client hands in about organisation 7. -/
def handedIn : EventCollection := ⟨1600,epochText,none,some 7⟩

/-- The client. -/
def handing : Caller := ⟨3,8,"192.0.2.1".toList⟩

/-- No other table is asked. -/
def noTables : Database := ⟨Tables.none,by decide⟩

/-- The table after the client has handed in some events. -/
def handedTable (n : ℕ) : EventTable :=
  (postEventsCollect noTables.toTables handing noEvents epochSettings (List.replicate n handedIn)).1

theorem named_zero : Named 0 := by
  unfold Named
  omega

/-- The organisation's listing, while nothing else is logged. -/
def epochListing (n fuel : ℕ) : List (List EventJson)×Bool :=
  listing (answers epochSettings (.ofOrg 7 7) (fun _ => noTables) (fun _ => (handedTable n).rows) epochRange) fuel 0 none

theorem logged_epoch (n : ℕ) : Logged epochSettings (fun _ => noTables) (fun _ => handedTable n)
    (fun _ => (handedTable n).rows) fun _ => [] where
  next _ := rfl
  rows _ := List.Perm.refl _

theorem events_listed_sample : ∃ fuel,(epochListing 29 fuel).2=true :=
  (@events_listed epochSettings (.ofOrg 7 7) (fun _ => (handedTable 29).rows) epochRange 0 0 (handedTable 29)
    epochDates_reads rfl noTables rfl (fun _ => List.Perm.refl _) rfl rfl named_zero named_zero).1.mpr
    fun _ _ _ _ => List.countP_le_length.trans_lt (by decide)

theorem listing_endless_sample : (epochListing 30 1000).2=false :=
  @listing_endless epochSettings (fun _ => noTables) (fun _ => handedTable 30) (fun _ => (handedTable 30).rows)
    (fun _ => []) epochRange 0 0 epochDates_reads rfl (logged_epoch 30) noTables.toTables handing noEvents
    (List.replicate 30 handedIn) rfl (by decide) 7 0 rfl (by decide) (fun _ _ hop => by cases hop) rfl rfl named_zero
    named_zero le_rfl le_rfl 1000

end Samples

end NadSafe.EventPages
