import PhotoAnalysis.Ledger.Preservation

/-!
# Who brought a photo where

The history tells for every photo which task has brought it to which status.  A
photo's own part of it is at most a claim followed by an end, both by one task,
and ends with the status of its committed row.
-/

namespace PhotoAnalysis

open Foundation PhotoRepository

/-- The status the write gives the photo. -/
def Write.statusOf (id : UUID) : Write → Option PhotoStatus
  | .setPhoto key values => if key = id then values.status else none
  | _ => none

/-- The photo that the write brings to `status`. -/
def Write.brought (status : PhotoStatus) : Write → Option UUID
  | .setPhoto key values => if values.status = some status then some key else none
  | _ => none

def Event.strides (id : UUID) : Event → List (Tid × PhotoStatus)
  | .committed t ws => (ws.filterMap (Write.statusOf id)).map (t, ·)
  | _ => []

/-- Who has brought the photo to which status, the latest first. -/
def strides (id : UUID) (events : List Event) : List (Tid × PhotoStatus) :=
  events.flatMap (Event.strides id)

def Event.broughtBy (t : Tid) (status : PhotoStatus) : Event → List UUID
  | .committed tid ws => if tid = t then ws.filterMap (Write.brought status) else []
  | _ => []

/-- The photos task `t` has brought to `status`. -/
def broughtBy (t : Tid) (status : PhotoStatus) (events : List Event) : List UUID :=
  events.flatMap (Event.broughtBy t status)

/-! ## Two ways to count -/

theorem count_brought (id : UUID) (status : PhotoStatus) (ws : List Write) :
    (ws.filterMap (Write.brought status)).count id =
      (ws.filterMap (Write.statusOf id)).count status := by
  induction ws with
  | nil => rfl
  | cons w ws ih =>
      cases w with
      | setPhoto key values =>
          by_cases hkey : key = id <;> by_cases hstatus : values.status = some status <;>
            cases hvalue : values.status <;>
              simp_all [Write.brought, Write.statusOf]
      | _ =>
          rw [List.filterMap_cons_none rfl, List.filterMap_cons_none rfl]
          exact ih

theorem count_map_pair (t u : Tid) (status : PhotoStatus) (l : List PhotoStatus) :
    (l.map (u, ·)).count (t, status) = if u = t then l.count status else 0 := by
  induction l with
  | nil => simp
  | cons s l ih =>
      rw [List.map_cons, List.count_cons, List.count_cons, ih]
      by_cases hu : u = t <;> by_cases hs : s = status <;> simp [hu, hs]

theorem count_broughtBy (t : Tid) (status : PhotoStatus) (id : UUID)
    (events : List Event) :
    (broughtBy t status events).count id = (strides id events).count (t, status) := by
  induction events with
  | nil => rfl
  | cons event events ih =>
      simp only [broughtBy, strides, List.flatMap_cons, List.count_append] at ih ⊢
      rw [ih]
      congr 1
      cases event with
      | committed u ws =>
          rw [Event.strides, count_map_pair, Event.broughtBy]
          split
          · exact count_brought id status ws
          · rfl
      | _ => rfl

/-! ## One photo's part of the history -/

inductive Chronicle : Option PhotoStatus → List (Tid × PhotoStatus) → Prop
  | unclaimed {status : Option PhotoStatus} (h : status.all (· = .pending)) :
      Chronicle status []
  | claimed (t : Tid) : Chronicle (some .processing) [(t, .processing)]
  | closed (t : Tid) {status : PhotoStatus} (h : status.terminal) :
      Chronicle (some status) [(t, status), (t, .processing)]

namespace Chronicle

variable {status : Option PhotoStatus} {l : List (Tid × PhotoStatus)}

theorem count_le_one (h : Chronicle status l) (stride : Tid × PhotoStatus) :
    l.count stride ≤ 1 := by
  cases h with
  | unclaimed => exact Nat.zero_le 1
  | claimed t => exact List.count_le_length
  | @closed t status hterminal =>
      have hnodup : [(t, status), (t, PhotoStatus.processing)].Nodup := by
        rcases hterminal with rfl | rfl <;> simp
      exact List.nodup_iff_count_le_one.mp hnodup stride

theorem claimed_of_mem (h : Chronicle status l) {t : Tid} {s : PhotoStatus}
    (hmem : (t, s) ∈ l) : (t, .processing) ∈ l := by
  cases h with
  | unclaimed => cases hmem
  | claimed => simp_all
  | closed => simp at hmem ⊢; grind

/-- The status of a photo that was claimed is the last it was brought to. -/
theorem status_iff (h : Chronicle status l) {t : Tid} (hmem : (t, .processing) ∈ l)
    {s : PhotoStatus} (hs : s.terminal) : status = some s ↔ (t, s) ∈ l := by
  cases h with
  | unclaimed => cases hmem
  | claimed =>
      rcases hs with rfl | rfl <;> simp
  | @closed u status hterminal =>
      have hu : t = u := by
        rcases List.mem_cons.mp hmem with heq | heq
        · cases heq; rfl
        · cases List.mem_singleton.mp heq; rfl
      have hne : s ≠ .processing := by rintro rfl; rcases hs with hs | hs <;> cases hs
      subst hu
      simp [hne, eq_comm]

theorem processing_iff (h : Chronicle status l) {t : Tid}
    (hmem : (t, .processing) ∈ l) :
    status = some .processing ↔ (t, .done) ∉ l ∧ (t, .failed) ∉ l := by
  rw [← h.status_iff hmem (.inl rfl), ← h.status_iff hmem (.inr rfl)]
  cases h with
  | unclaimed => cases hmem
  | claimed => simp
  | closed u hterminal => rcases hterminal with rfl | rfl <;> simp

end Chronicle

def Tables.status (T : Tables) (id : UUID) : Option PhotoStatus :=
  (T.photo id).map Photo.status

/-- Every photo's part of the history is in order. -/
def Ledger.Recorded (L : Ledger) : Prop :=
  ∀ id, Chronicle (L.tables.status id) (strides id L.events)

variable {M : Nat} {t : Tid} {L L' : Ledger} {ws : List Write} {id : UUID}

/-! ## What a transaction does to the status -/

theorem Tables.status_setPhoto (T : Tables) (key : UUID) (values : PhotoValues) :
    (Write.apply T (.setPhoto key values)).status id =
      if key = id then (T.status id).map values.status.getD else T.status id := by
  rw [Tables.status, Tables.status, photo_setPhoto]
  split
  · cases T.photo id <;> rfl
  · rfl

/-- Updates that do not set the status. -/
theorem Tables.status_foldl (T : Tables)
    (h : ∀ w ∈ ws, ∃ key values, w = .setPhoto key values ∧ values.status = none) :
    (ws.foldl Write.apply T).status id = T.status id := by
  induction ws generalizing T with
  | nil => rfl
  | cons w ws ih =>
      obtain ⟨key, values, rfl, hnone⟩ := h w List.mem_cons_self
      rw [List.foldl_cons, ih _ fun w hw => h w (List.mem_cons_of_mem _ hw),
        status_setPhoto, hnone]
      split
      · cases T.status id <;> rfl
      · rfl

theorem filterMap_statusOf
    (h : ∀ w ∈ ws, ∃ key values, w = .setPhoto key values ∧ values.status = none) :
    ws.filterMap (Write.statusOf id) = [] := by
  refine List.filterMap_eq_nil_iff.mpr fun w hw => ?_
  obtain ⟨key, values, rfl, hnone⟩ := h w hw
  simp [Write.statusOf, hnone]

theorem strides_commit : strides id (L.commit t ws).events =
    (ws.filterMap (Write.statusOf id)).map (t, ·) ++ strides id L.events := rfl

theorem Ledger.Recorded.same (h : L.Recorded)
    (hnone : ws.filterMap (Write.statusOf id) = [])
    (hstatus : (L.commit t ws).tables.status id = L.tables.status id) :
    Chronicle ((L.commit t ws).tables.status id) (strides id (L.commit t ws).events) := by
  rw [strides_commit, hnone, hstatus]
  exact h id

/-- The owner brings the photo to an end. -/
theorem Ledger.Recorded.close {key : UUID} {values : PhotoValues} {status : PhotoStatus}
    (h : L.Recorded) (howner : L.Owner t key) {life : Life M} {n : Nat}
    (hlife : L.Lives key life) (ht : life.tried = some n) (hterminal : status.terminal)
    (hvalues : values.status = some status)
    (hws : ws.filterMap (Write.statusOf id) =
      [.setPhoto key values].filterMap (Write.statusOf id))
    (hstatus : (L.commit t ws).tables.status id =
      (Write.apply L.tables (.setPhoto key values)).status id) :
    Chronicle ((L.commit t ws).tables.status id) (strides id (L.commit t ws).events) := by
  rw [strides_commit, hws, hstatus, Tables.status_setPhoto]
  by_cases hkey : key = id
  · subst hkey
    obtain ⟨a, hloaded, hshows⟩ := hlife
    have hbefore : L.tables.status key = some .processing := by
      rw [Tables.status, (Tables.loaded_eq_some.mp hloaded).1, Option.map_some,
        hshows.status, (Life.status_of_tried ht).1]
    have hmem : (t, .processing) ∈ strides key L.events :=
      List.mem_flatMap.mpr ⟨_, howner, by simp [Event.strides, claimWrite, Write.statusOf]⟩
    have hchronicle := h key
    rw [hbefore] at hchronicle ⊢
    generalize strides key L.events = l at hmem hchronicle ⊢
    cases hchronicle with
    | unclaimed hpending => cases hmem
    | claimed u =>
        cases List.mem_singleton.mp hmem
        simpa [Write.statusOf, hvalues] using Chronicle.closed t hterminal
    | closed u hbad => rcases hbad with hbad | hbad <;> cases hbad
  · rw [if_neg hkey]
    simpa [Write.statusOf, hkey] using h id

/-- Photos that are inserted start without a history. -/
theorem Ledger.Recorded.insert (rows : List Photo) {T : Tables} (h : L.Recorded)
    (hT : ∀ id, T.photo id = L.tables.photo id)
    (hrows : ∀ row ∈ rows, row.status = .pending)
    (hnone : ws.filterMap (Write.statusOf id) = [])
    (htables : (L.commit t ws).tables = (rows.map Write.addPhoto).foldl Write.apply T) :
    Chronicle ((L.commit t ws).tables.status id) (strides id (L.commit t ws).events) := by
  rw [strides_commit, hnone, List.map_nil, List.nil_append, htables, Tables.status,
    Tables.photo_inserts, hT]
  have hchronicle := h id
  rw [Tables.status] at hchronicle
  split
  next hnew =>
    rw [hnew, Option.map_none] at hchronicle
    generalize strides id L.events = l at hchronicle ⊢
    cases hchronicle with
    | unclaimed =>
        refine .unclaimed ?_
        cases hfind : rows.find? fun row => row.photoId = id with
        | none => rfl
        | some row => simp [hrows row (List.mem_of_find?_eq_some hfind)]
  next => exact hchronicle

theorem Uploads.status {file : UploadFile} {traceId : Str} {batchId : Option UUID}
    {row : Photo} (h : Uploads file traceId batchId row) : row.status = .pending := by
  obtain ⟨ext, contentType, now, -, -, hrow⟩ := h
  rw [hrow]
  rfl

theorem Ledger.Recorded.commit (h : L.Recorded) (htx : Tx M t L ws) :
    (L.commit t ws).Recorded := by
  intro id
  cases htx with
  | nothing => exact h.same rfl rfl
  | @claim key a ha hs =>
      have hbefore : L.tables.status key = some .pending := by
        rw [Tables.status, (Tables.loaded_eq_some.mp ha).1, Option.map_some, hs]
      by_cases hkey : key = id
      · subst hkey
        have hchronicle := h key
        have hafter : (L.commit t [claimWrite key]).tables.status key =
            some .processing := by
          change (Write.apply L.tables (claimWrite key)).status key = _
          rw [claimWrite, Tables.status_setPhoto, if_pos rfl, hbefore]
          rfl
        rw [strides_commit, hafter]
        rw [hbefore] at hchronicle
        generalize strides key L.events = l at hchronicle ⊢
        cases hchronicle with
        | unclaimed => simpa [claimWrite, Write.statusOf] using Chronicle.claimed t
        | closed u hbad => rcases hbad with hbad | hbad <;> cases hbad
      · refine h.same (by simp [claimWrite, Write.statusOf, hkey]) ?_
        exact (Tables.status_setPhoto _ _ _).trans (if_neg hkey)
  | @attempt key n code message life howner hlife ht hn =>
      have hws : ∀ w ∈ [Write.setPhoto key (attemptValues (n + 1) code message)],
          ∃ key values, w = .setPhoto key values ∧ values.status = none :=
        fun w hw => ⟨key, _, List.mem_singleton.mp hw, rfl⟩
      exact h.same (filterMap_statusOf hws) (Tables.status_foldl _ hws)
  | @done key n row life howner hlife ht hn hrow =>
      exact h.close howner hlife ht (.inl rfl) rfl rfl rfl
  | @fail key n code message life howner hlife ht hn =>
      exact h.close howner hlife ht (.inr rfl) rfl rfl rfl
  | @publish marks hmarks =>
      have hws : ∀ w ∈ marks.map fun mark => Write.setPhoto mark.1 mark.2,
          ∃ key values, w = .setPhoto key values ∧ values.status = none := by
        intro w hw
        obtain ⟨mark, hmark, rfl⟩ := List.mem_map.mp hw
        obtain ⟨⟨time, hvalues⟩, -⟩ := hmarks mark hmark
        exact ⟨_, _, rfl, by rw [hvalues]; rfl⟩
      exact h.same (filterMap_statusOf hws) (Tables.status_foldl _ hws)
  | @upload requestId file before row ha hrow hfresh hstored =>
      refine h.insert [row] (fun _ => rfl) ?_ rfl rfl
      exact fun row' hrow' => List.mem_singleton.mp hrow' ▸ hrow.status
  | @batch requestId files before batchId now rows ha hminted hfresh hcount hrows hnodup =>
      refine h.insert rows (T := Write.apply L.tables (.addBatch _)) (fun _ => rfl)
        (fun row hrow => ?_) ?_ rfl
      · obtain ⟨file, -, hup, -⟩ := forall₂_right hrows hrow
        exact hup.status
      · refine List.filterMap_eq_nil_iff.mpr fun w hw => ?_
        rcases List.mem_cons.mp hw with rfl | hw
        · rfl
        · obtain ⟨row, -, rfl⟩ := List.mem_map.mp hw
          rfl
  | complete hbatch hall => exact h.same rfl rfl

theorem Ledger.Recorded.move {locked : RowKey → Prop} (h : L.Recorded)
    (hmove : Move M locked t L L') : L'.Recorded := by
  obtain ⟨L₁, hact, hnote, -⟩ := hmove
  have h₁ : L₁.Recorded := by
    rcases hact with rfl | hact
    · exact h
    · cases hact with
      | commit hlive ha htx => exact h.commit htx
      | _ => exact h
  rcases hnote with rfl | ⟨event, hevent, rfl⟩
  · exact h₁
  · cases event with
    | committed => exact hevent.elim
    | _ => exact h₁

theorem Ledger.Recorded.empty : World.initial.ledger.Recorded :=
  fun _ => .unclaimed rfl

/-! ## What one task has brought where -/

theorem mem_broughtBy {status : PhotoStatus} {events : List Event} :
    id ∈ broughtBy t status events ↔ (t, status) ∈ strides id events := by
  rw [← List.count_pos_iff, count_broughtBy, List.count_pos_iff]

theorem countP_mem_of_subset {α : Type} [DecidableEq α] {l part : List α} (hl : l.Nodup)
    (hpart : part.Nodup) (hsub : part ⊆ l) :
    l.countP (· ∈ part) = part.length := by
  rw [List.countP_eq_length_filter]
  refine List.Perm.length_eq ((List.perm_ext_iff_of_nodup (hl.filter _) hpart).mpr
    fun a => ?_)
  rw [List.mem_filter, decide_eq_true_iff]
  exact ⟨fun h => h.2, fun h => ⟨hsub h, h⟩⟩

namespace Ledger.Recorded

/-- A task brings a photo to a status once. -/
theorem nodup (h : L.Recorded) (t : Tid) (status : PhotoStatus) :
    (broughtBy t status L.events).Nodup :=
  List.nodup_iff_count_le_one.mpr fun id => by
    rw [count_broughtBy]
    exact (h id).count_le_one _

/-- Of the photos a task has claimed, those it has not brought to an end are the ones
still in processing. -/
theorem countP_processing (h : L.Recorded) (t : Tid) :
    ((broughtBy t .processing L.events).countP fun id =>
        L.tables.status id = some .processing) +
      ((broughtBy t .done L.events).length + (broughtBy t .failed L.events).length) =
        (broughtBy t .processing L.events).length := by
  have hclosed : ∀ {status}, status.terminal →
      broughtBy t status L.events ⊆ broughtBy t .processing L.events :=
    fun hterminal id hid => mem_broughtBy.mpr
      ((h id).claimed_of_mem (mem_broughtBy.mp hid))
  have hapart : (broughtBy t .done L.events).Disjoint (broughtBy t .failed L.events) := by
    intro id hdone hfailed
    rw [mem_broughtBy] at hdone hfailed
    have hmem := (h id).claimed_of_mem hdone
    have hboth := ((h id).status_iff hmem (.inl rfl)).mpr hdone
    rw [((h id).status_iff hmem (.inr rfl)).mpr hfailed] at hboth
    cases hboth
  have hends : (broughtBy t .done L.events ++ broughtBy t .failed L.events).Nodup :=
    (h.nodup t .done).append (h.nodup t .failed) hapart
  have hcount := countP_mem_of_subset (h.nodup t .processing) hends
    (List.append_subset.mpr ⟨hclosed (.inl rfl), hclosed (.inr rfl)⟩)
  rw [← List.length_append, ← hcount,
    List.length_eq_countP_add_countP fun id => L.tables.status id = some .processing]
  congr 1
  refine List.countP_congr fun id hid => ?_
  simp only [decide_eq_true_eq, List.mem_append, mem_broughtBy,
    (h id).processing_iff (mem_broughtBy.mp hid)]
  tauto

end Ledger.Recorded

end PhotoAnalysis
