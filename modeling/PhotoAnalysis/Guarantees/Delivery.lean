import PhotoAnalysis.Guarantees.Photos

/-!
# From the outbox to the workers

A photo is marked sent only after the topic has acknowledged a record that asks
for its analysis.  A photo that is pending still has its turn ahead of it, or
else its claim has raised in a worker that then went on to the next record.
-/

namespace PhotoAnalysis

open Foundation Program

variable {M : Nat} {L : Ledger} {settings : Settings} {state state' : State}
variable {id : UUID} {p q : Photo} {record : ConsumerRecord}

/-- Every consumer reads exactly the photo's id and key from the record. -/
def ConsumerRecord.Requests (record : ConsumerRecord) (p : Photo) : Prop :=
  ∃ payload, (∀ interpreter : Interpreter,
      Json.loads interpreter.nesting record.value = .ok (.dict payload)) ∧
    Json.get payload (py "photo_id") = some (.str p.photoId.text) ∧
    Json.get payload (py "object_key") = some (.str p.objectKey)

theorem get_received (photoId objectKey : Str) (createdAt : Time) (traceId : Str) :
    Json.get (received photoId objectKey createdAt traceId) (py "photo_id") =
        some (.str photoId) ∧
      Json.get (received photoId objectKey createdAt traceId) (py "object_key") =
        some (.str objectKey) :=
  ⟨rfl, rfl⟩

theorem Announces.requests (h : Announces record p)
    (hkey : Json.Scalar p.objectKey) : record.Requests p := by
  obtain ⟨createdAt, traceId, htrace, hvalue⟩ := h
  refine ⟨received p.photoId.text p.objectKey createdAt traceId, fun interpreter => ?_,
    get_received _ _ _ _⟩
  rw [hvalue, loads_payload interpreter createdAt (scalar_text _) hkey htrace]

theorem ConsumerRecord.Requests.photoId_eq (h : record.Requests p)
    (h' : record.Requests q) : p.photoId = q.photoId := by
  obtain ⟨payload, hloads, hid, -⟩ := h
  obtain ⟨payload', hloads', hid', -⟩ := h'
  have hloads' := (hloads' (.ofLimit 1)).symm.trans (hloads (.ofLimit 1))
  rw [Except.ok.injEq, Json.dict.injEq] at hloads'
  subst hloads'
  rw [hid, Option.some.injEq, Json.str.injEq] at hid'
  exact UUID.text_injective hid'

/-! ## The outbox -/

/-- A record for the photo has been acknowledged. -/
def Requested (state : State) (p : Photo) : Prop :=
  ∃ record ∈ state.world.topic, record.acked ∧ record.Requests p

theorem Inv.requested (hI : Inv M L) (hp : L.tables.photo id = some p)
    (hsent : p.publishStatus = .sent) :
    ∃ (i : Nat) (record : ConsumerRecord), L.topic[i]? = some record ∧
      record.acked ∧ record.Requests p := by
  obtain ⟨record, hmem, hacked, hannounces⟩ := hI.sent id p hp hsent
  obtain ⟨i, hi⟩ := List.mem_iff_getElem?.mp hmem
  exact ⟨i, record, hi, hacked, hannounces.requests (hI.objectKey_ok hp).1⟩

/-- What a photo that is marked sent can rely on, now and later. -/
theorem sent_requested (h : Reachable settings state)
    (hlead : (system settings).Leads state state')
    (hp : state.world.db.committed.photo id = some p)
    (hsent : p.publishStatus = .sent) :
    Requested state p ∧ ∃ q, state'.world.db.committed.photo id = some q ∧
      q.publishStatus = .sent := by
  obtain ⟨i, record, hi, hacked, hrequests⟩ := (reachable_inv h).requested hp hsent
  obtain ⟨q, hq, -, hstays, -⟩ := (reachable_grows h hlead).photo hp
  exact ⟨⟨record, List.mem_of_getElem? hi, hacked, hrequests⟩, q, hq, hstays hsent⟩

theorem sent_requested_published : ∃ state p, Reachable defaultSettings state ∧
    state.world.db.committed.photo jpegId = some p ∧ p.publishStatus = .sent ∧
    Requested state p := by
  obtain ⟨state, hreach, hsent⟩ := reachable_of_any defaultSettings
    (uploads ++ publishes)
    (P := fun state => (state.world.db.committed.photo jpegId).any fun p =>
      p.publishStatus = .sent) (by decide +kernel)
  obtain ⟨p, hp, hpublished⟩ := (Option.any_eq_true _ _).mp hsent
  have hmark : p.publishStatus = .sent := of_decide_eq_true hpublished
  exact ⟨state, p, hreach, hp, hmark,
    (sent_requested hreach ⟨[], rfl⟩ hp hmark).1⟩

/-! ## Pending photos -/

/-- A record that asks for the photo lies at an offset not committed yet. -/
def Awaited (state : State) (p : Photo) : Prop :=
  ∃ (i : Nat) (record : ConsumerRecord), state.world.committedOffset ≤ i ∧
    state.world.topic[i]? = some record ∧ record.Requests p

/-- The offset of a record about a pending photo is committed for one reason only. -/
theorem Ledger.Settled.claimRaised (hI : Inv M L) {i : Nat} (h : L.Settled i)
    (hi : L.topic[i]? = some record) (hacked : record.acked)
    (hrequests : record.Requests p) (hp : L.tables.photo id = some p)
    (hpending : p.status = .pending) : L.ClaimRaised id := by
  obtain ⟨record', hi', hdone⟩ := h
  rw [hi, Option.some.injEq] at hi'
  subst hi'
  obtain ⟨id', q, hq, hannounces, hhandled⟩ := hdone hacked
  have hsame : p.photoId = q.photoId :=
    hrequests.photoId_eq (hannounces.requests (hI.objectKey_ok hq).1)
  rw [Tables.photoId_of_photo hp, Tables.photoId_of_photo hq] at hsame
  subst hsame
  rw [hp, Option.some.injEq] at hq
  subst hq
  exact hhandled.resolve_left (absurd hpending)

theorem pending_awaited (h : Reachable settings state)
    (hp : state.world.db.committed.photo id = some p)
    (hpending : p.status = .pending) :
    p.publishStatus = .notSent ∨ Awaited state p ∨
      state.world.ledger.ClaimRaised id := by
  have hI := reachable_inv h
  cases hpublish : p.publishStatus with
  | notSent => exact .inl rfl
  | sent =>
      right
      obtain ⟨i, record, hi, hacked, hrequests⟩ := hI.requested hp hpublish
      by_cases hoffset : i < state.world.committedOffset
      · exact .inr ((hI.settled i hoffset).claimRaised hI hi hacked hrequests hp
          hpending)
      · exact .inl ⟨i, record, Nat.le_of_not_lt hoffset, hi, hrequests⟩

theorem pending_awaited_published : ∃ state p, Reachable defaultSettings state ∧
    state.world.db.committed.photo jpegId = some p ∧ p.status = .pending ∧
    p.publishStatus = .sent ∧ (p.publishStatus = .notSent ∨ Awaited state p ∨
      state.world.ledger.ClaimRaised jpegId) := by
  obtain ⟨state, hreach, hsent⟩ := reachable_of_any defaultSettings
    (uploads ++ publishes)
    (P := fun state => (state.world.db.committed.photo jpegId).any fun p =>
      p.status = .pending ∧ p.publishStatus = .sent) (by decide +kernel)
  obtain ⟨p, hp, hboth⟩ := (Option.any_eq_true _ _).mp hsent
  obtain ⟨hpending, hmark⟩ := of_decide_eq_true hboth
  exact ⟨state, p, hreach, hp, hpending, hmark,
    pending_awaited hreach hp hpending⟩

/-- Worker `t` fails to execute its claim, swallows that and commits its offset. -/
def misses (t : Tid) : Schedule :=
  [.start t .worker, .step t .ok, .again t] ++ goes t 3 ++
    [.step t (.fail (.database (py "connection is closed")) false)] ++ goes t 3

/-- A claim that raises leaves the photo pending with nothing to bring it back. -/
theorem pending_photo_missed :
    ¬∀ state, Reachable defaultSettings state → ∀ id p,
      state.world.db.committed.photo id = some p → p.status = .pending →
        p.publishStatus = .notSent ∨ Awaited state p := by
  intro h
  obtain ⟨state, hreach, hphoto, htopic⟩ := reachable_of_any
    defaultSettings (uploads ++ publishes ++ misses 2)
    (P := fun state => ((state.world.db.committed.photo jpegId).any fun p =>
        p.status = .pending ∧ p.publishStatus = .sent) ∧
      state.world.topic.length = state.world.committedOffset) (by decide +kernel)
  obtain ⟨p, hp, hboth⟩ := (Option.any_eq_true _ _).mp hphoto
  obtain ⟨hpending, hsent⟩ := of_decide_eq_true hboth
  rcases h state hreach jpegId p hp hpending with hnot | ⟨i, record, hi, hrecord, -⟩
  · rw [hsent] at hnot
    cases hnot
  · rw [← htopic, ← List.getElem?_eq_none_iff, hrecord] at hi
    cases hi

end PhotoAnalysis
