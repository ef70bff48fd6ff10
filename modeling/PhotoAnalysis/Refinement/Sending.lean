import PhotoAnalysis.Refinement.Footprints
import PhotoAnalysis.Refinement.Publisher

/-!
# What the publisher puts on the topic

A discipline that keeps of a row only what nobody ever changes of it.  Whatever a
task sends it has read off a committed photo, under the trace id of that photo.
-/

namespace PhotoAnalysis

open Foundation Program

/-! ## Photos stay -/

/-- The photos of some tables are in later ones, the same but for their progress. -/
def Tables.Keep (T T' : Tables) : Prop :=
  ∀ id p, T.photo id = some p → ∃ q, T'.photo id = some q ∧ q.identity = p.identity

namespace Tables.Keep

variable {T T' T'' : Tables}

theorem refl (T : Tables) : T.Keep T := fun _ p hp => ⟨p, hp, rfl⟩

theorem trans (h : T.Keep T') (h' : T'.Keep T'') : T.Keep T'' := by
  intro id p hp
  obtain ⟨q, hq, hqp⟩ := h id p hp
  obtain ⟨r, hr, hrq⟩ := h' id q hq
  exact ⟨r, hr, hrq.trans hqp⟩

theorem apply (T : Tables) (write : Write) : T.Keep (Write.apply T write) := by
  intro id p hp
  cases write with
  | addPhoto row => exact ⟨p, by simp [hp], rfl⟩
  | setPhoto key values =>
      by_cases hkey : key = id
      · exact ⟨p.set values, by simp [hkey, hp], rfl⟩
      · exact ⟨p, by simp [hkey, hp], rfl⟩
  | addBatch | addAnalysis | setBatch => exact ⟨p, hp, rfl⟩

theorem writes (ws : List Write) (T : Tables) : T.Keep (ws.foldl Write.apply T) := by
  induction ws generalizing T with
  | nil => exact refl T
  | cons write ws ih => exact (apply T write).trans (ih _)

end Tables.Keep

/-- No write that is still open adds a photo. -/
def AddsNone (ws : List Write) : Prop := ∀ row, .addPhoto row ∉ ws

/-- Then the session sees the committed photos, but for their progress. -/
theorem AddsNone.photo {ws : List Write} (h : AddsNone ws) {T : Tables} {id : UUID}
    {q : Photo} (hq : (ws.foldl Write.apply T).photo id = some q) :
    ∃ p, T.photo id = some p ∧ p.identity = q.identity := by
  induction ws generalizing T with
  | nil => exact ⟨q, hq, rfl⟩
  | cons write ws ih =>
      obtain ⟨p, hp, hidentity⟩ := ih (fun row hrow => h row (.tail _ hrow)) hq
      cases write with
      | addPhoto row => exact absurd List.mem_cons_self (h row)
      | setPhoto key values =>
          rw [Tables.photo_setPhoto] at hp
          split at hp
          · obtain ⟨p', hp', rfl⟩ := Option.map_eq_some_iff.mp hp
            exact ⟨p', hp', hidentity⟩
          · exact ⟨p, hp, hidentity⟩
      | addBatch | addAnalysis | setBatch => exact ⟨p, hp, hidentity⟩

theorem insert_of_resolve {stmt : Stmt} {now : Time} {T : Tables} {row : Photo}
    (h : stmt.resolve now T = .ok (some (.addPhoto row))) :
    ∃ photo, stmt = .insertPhoto photo := by
  cases stmt with
  | insertPhoto photo => exact ⟨photo, rfl⟩
  | insertBatch id status =>
      simp only [Stmt.resolve] at h
      split at h <;> cases h
  | insertAnalysis id faces blurred score hash =>
      simp only [Stmt.resolve] at h
      split at h
      · cases h
      split at h
      · cases h
      split at h <;> cases h
  | updatePhoto id status values =>
      simp only [Stmt.resolve] at h
      split at h
      · cases h
      split at h
      · cases h
      split at h
      · split at h <;> cases h
      · cases h
  | updateBatch id status best =>
      simp only [Stmt.resolve] at h
      split at h
      · cases h
      split at h <;> cases h

/-! ## What an operation does to the database -/

/-- The open writes of `t` are kept, lost, or one statement longer. -/
structure Transacts (t : Tid) (op : Op) (w w' : World) : Prop where
  committed : w'.db.committed = w.db.committed ∨ w'.db.committed = w.view t
  writes : w'.db.writes t = w.db.writes t ∨ w'.db.writes t = [] ∨
    ∃ stmt write, op = .execute stmt ∧
      stmt.resolve (w.now t) (w.view t) = .ok (some write) ∧
      w'.db.writes t = w.db.writes t ++ [write]

namespace Transacts

variable {t : Tid} {op : Op} {w w' : World}

theorem of_db_eq (h : w'.db = w.db) : Transacts t op w w' :=
  ⟨.inl (by rw [h]), .inl (by rw [h])⟩

theorem rollback (t : Tid) (op : Op) (w : World) : Transacts t op w (w.rollback t) :=
  ⟨.inl rfl, .inr (.inl (w.db.writes_rollback t))⟩

theorem commit (t : Tid) (op : Op) (w : World) : Transacts t op w (w.commit t) :=
  ⟨.inr rfl, .inr (.inl (w.db.writes_commit t))⟩

theorem note (h : Transacts t op w w') (event : Event) :
    Transacts t op w (w'.note event) :=
  ⟨h.committed, h.writes⟩

theorem execute {stmt : Stmt} {answer : Except PyExc Nat}
    (h : w.execute t stmt = some (answer, w')) : Transacts t (.execute stmt) w w' := by
  simp only [World.execute] at h
  split at h
  · cases h
    exact (rollback t _ w).note _
  · cases h
    exact of_db_eq rfl
  next write hresolve =>
    split at h
    next hfree =>
      cases h
      exact ⟨.inl rfl, .inr (.inr ⟨stmt, write, rfl, hresolve,
        w.db.writes_write t write hfree⟩)⟩
    next => cases h

theorem answer {choice : Choice} {answer : Except PyExc op.Ans}
    (h : w.answer t op choice = some (answer, w')) : Transacts t op w w' := by
  cases op with
  | execute stmt => cases choice <;> first | exact execute h | cases h
  | select query =>
      cases choice <;> try cases h
      obtain ⟨rows, -, heq⟩ := Option.map_eq_some_iff.mp h
      cases heq
      exact of_db_eq rfl
  | commit =>
      cases choice <;> cases h
      exact commit t _ w
  | rollback | close =>
      cases choice <;> cases h
      exact rollback t _ w
  | uuid4 | getObject _ | acquireStartLock _ | sleep _ | waitStop | getone =>
      cases choice <;> try cases h
      simp only [World.answer] at h
      split at h <;> cases h <;> exact of_db_eq rfl
  | _ =>
      cases choice <;> cases h
      exact of_db_eq rfl

theorem halfDone (h : w.halfDone t op = some w') : Transacts t op w w' := by
  cases op with
  | commit =>
      cases h
      exact commit t _ w
  | _ => first
      | cases h
        exact of_db_eq rfl
      | cases h

theorem perform {choice : Choice} {answer : Except PyExc op.Ans}
    (h : World.perform t op choice w = some (answer, w')) : Transacts t op w w' := by
  rcases World.perform_cases h with ⟨exc, kept, -, -, rfl⟩ |
    ⟨exc, w₁, hw₁, -, rfl⟩ | h
  · cases kept
    · exact (rollback t op w).note _
    · exact of_db_eq rfl
  · exact (halfDone hw₁).note _
  · exact .answer h

theorem keep (h : Transacts t op w w') : w.db.committed.Keep w'.db.committed := by
  rcases h.committed with heq | heq
  · rw [heq]
    exact .refl _
  · rw [heq]
    exact .writes _ _

/-- Only an insert adds a photo to the open writes. -/
theorem addsNone (h : Transacts t op w w')
    (hop : ∀ photo, op ≠ .execute (.insertPhoto photo)) (hadds : AddsNone (w.db.writes t)) :
    AddsNone (w'.db.writes t) := by
  rcases h.writes with heq | heq | ⟨stmt, write, rfl, hresolve, heq⟩
  · rwa [heq]
  · rw [heq]
    exact fun row => List.not_mem_nil
  · rw [heq]
    intro row hrow
    rcases List.mem_append.mp hrow with hrow | hrow
    · exact hadds row hrow
    · obtain rfl := List.mem_singleton.mp hrow
      obtain ⟨photo, rfl⟩ := insert_of_resolve hresolve
      exact hop photo rfl

end Transacts

/-! ## The discipline -/

/-- The photo is committed, but for its progress. -/
def World.Knows (w : World) (row : Photo) : Prop :=
  ∃ p, w.db.committed.photo row.photoId = some p ∧ p.identity = row.identity

/-- The event of a committed photo, under the trace id that its row asks for. -/
def World.Told (w : World) (value : Bytes) : Prop :=
  ∃ row, w.Knows row ∧ ∃ traceId, (∀ stored, row.traceId = some stored → stored ≠ [] →
      traceId = stored) ∧
    Text.utf8Encode (Json.dumps (KafkaEventProducer.payload row.photoId.text row.objectKey
      row.createdAt traceId)) = some value

/-- What the others leave a task: what it has to itself, and the photos. -/
structure Spared (t : Tid) (w w' : World) : Prop where
  writes : w'.db.writes t = w.db.writes t
  traceId : w'.traceId t = w.traceId t
  photos : w.db.committed.Keep w'.db.committed

/-- A task spares the others, and what it sends is told. -/
structure Speaks (t : Tid) (w w' : World) : Prop where
  others : ∀ other, other ≠ t → Spared other w w'
  sends : w'.topic = w.topic ∨ ∃ value key acked,
    w'.topic = w.topic ++ [⟨some value, some key, acked⟩] ∧ w.Told value

def messages : Discipline World where
  inv := fun _ => True
  guar := Speaks
  rely := Spared
  rely_refl := fun _ _ => ⟨rfl, rfl, .refl _⟩
  rely_trans := fun h h' => ⟨h'.writes.trans h.writes, h'.traceId.trans h.traceId,
    h.photos.trans h'.photos⟩
  inv_of_guar := fun _ _ => trivial
  rely_of_guar := fun _ h hne => h.others _ hne

variable {t : Tid} {w w' : World} {rows : List Photo} {traceId : Json}

theorem Spared.perform {op : Op} {choice : Choice} {answer : Except PyExc op.Ans}
    (h : World.perform t op choice w = some (answer, w')) {other : Tid} (hne : other ≠ t) :
    Spared other w w' := by
  have hown := (Frame.perform h).own other hne
  exact ⟨congrArg Own.writes hown, congrArg Own.traceId hown, (Transacts.perform h).keep⟩

theorem Speaks.perform {op : Op} {choice : Choice} {answer : Except PyExc op.Ans}
    (h : World.perform t op choice w = some (answer, w')) (hop : op.concern ≠ .send) :
    Speaks t w w' :=
  ⟨fun _ => Spared.perform h, .inl ((Keeps.perform h).topic hop)⟩

/-- A send that raises may have been received, or not. -/
theorem Speaks.send {client : ClientId} {value key : Bytes} {choice : Choice}
    {answer : Except PyExc Unit}
    (h : World.perform t (.sendAndWait client value key) choice w = some (answer, w'))
    (htold : w.Told value) : Speaks t w w' := by
  refine ⟨fun _ => Spared.perform h, ?_⟩
  rcases World.perform_cases h with ⟨exc, kept, hkept, -, rfl⟩ | ⟨exc, w₁, hw₁, -, rfl⟩ | h
  · cases kept <;> exact .inl rfl
  · cases hw₁
    exact .inr ⟨value, key, false, rfl, htold⟩
  · cases choice <;> cases h
    exact .inr ⟨value, key, true, rfl, htold⟩

/-! ## The publisher -/

/-- The session of `t` adds no photo, and the rows are known. -/
structure Reading (t : Tid) (rows : List Photo) (w : World) : Prop where
  adds : AddsNone (w.db.writes t)
  rows : ∀ row ∈ rows, w.Knows row

theorem World.Knows.keep {row : Photo} (h : w.Knows row)
    (hkeep : w.db.committed.Keep w'.db.committed) : w'.Knows row := by
  obtain ⟨p, hp, hidentity⟩ := h
  obtain ⟨q, hq, hqp⟩ := hkeep _ p hp
  exact ⟨q, hq, hqp.trans hidentity⟩

theorem Reading.steady : messages.Steady t (Reading t rows) := by
  intro w w' hrely _ h
  exact ⟨hrely.writes ▸ h.adds, fun row hrow => (h.rows row hrow).keep hrely.photos⟩

theorem Reading.perform {op : Op} {choice : Choice} {answer : Except PyExc op.Ans}
    (h : World.perform t op choice w = some (answer, w'))
    (hop : ∀ photo, op ≠ .execute (.insertPhoto photo)) (hw : Reading t rows w) :
    Reading t rows w' :=
  ⟨(Transacts.perform h).addsNone hop hw.adds, fun row hrow =>
    (hw.rows row hrow).keep (Transacts.perform h).keep⟩

/-- And the trace id is set. -/
structure Labelled (t : Tid) (rows : List Photo) (traceId : Json) (w : World) : Prop
    extends Reading t rows w where
  traceId : w.traceId t = traceId

theorem Labelled.steady : messages.Steady t (Labelled t rows traceId) := by
  intro w w' hrely hi h
  exact ⟨Reading.steady hrely hi h.toReading, hrely.traceId.trans h.traceId⟩

/-- An operation of the publisher but for its sends. -/
def Op.isQuiet (op : Op) : Prop :=
  op.concern ≠ .send ∧ ∀ photo, op ≠ .execute (.insertPhoto photo)

theorem Op.isQuiet.of_isLocal {op : Op} (h : op.isLocal) : op.isQuiet := by
  cases op with
  | sendAndWait client value key => cases h
  | execute stmt => cases h
  | _ => exact ⟨nofun, nofun⟩

abbrev Says (t : Tid) {α : Type} (P : World → Prop) (program : Py α)
    (Q : Except PyExc α → World → Prop) : Prop :=
  messages.Triple World.perform t P program Q

theorem says_reading {op : Op} (hop : op.isQuiet) :
    Says t (Reading t rows) (wait op) fun _ => Reading t rows :=
  .call (fun _ => Reading.steady) fun _ _ _ _ _ hw h =>
    ⟨.perform h hop.1, hw.perform h hop.2⟩

theorem says_labelled {op : Op} (hop : op.isQuiet) (htrace : op.concern ≠ .traceId) :
    Says t (Labelled t rows traceId) (wait op) fun _ => Labelled t rows traceId :=
  .call (fun _ => Labelled.steady) fun _ _ _ _ _ hw h =>
    ⟨.perform h hop.1, hw.perform h hop.2,
      (congrFun ((Keeps.perform h).traceId htrace) t).trans hw.traceId⟩

/-- The text the message of a row carries as its trace id. -/
def Labels (row : Photo) (text : Str) : Prop :=
  ∀ stored, row.traceId = some stored → stored ≠ [] → text = stored

theorem says_rowTraceId (row : Photo) :
    Says t (Reading t rows) (Outbox.rowTraceId row) fun answer w => match answer with
      | .ok text => Labels row text ∧ Reading t rows w
      | .error _ => Reading t rows w := by
  unfold Outbox.rowTraceId
  split
  next c rest htrace =>
    refine .ret fun w _ h => ⟨fun stored hstored _ => ?_, h⟩
    exact Option.some.inj (htrace.symm.trans hstored)
  next hnone =>
    refine .seq (Reading t rows) (says_reading ⟨nofun, nofun⟩) (fun id => ?_)
      fun _ _ _ h => h
    refine .ret fun w _ h => ⟨fun stored hstored hne => ?_, h⟩
    obtain ⟨c, rest, rfl⟩ := List.exists_cons_of_ne_nil hne
    exact absurd hstored (hnone c rest)

theorem says_encode {P : World → Prop} (text : Str) :
    Says t P (KafkaEventProducer.encodeUtf8 text) fun answer w => match answer with
      | .ok bytes => Text.utf8Encode text = some bytes ∧ P w
      | .error _ => P w := by
  unfold KafkaEventProducer.encodeUtf8
  split
  next hbytes => exact .ret fun w _ h => ⟨hbytes, h⟩
  next => exact .raise fun w _ h => h

theorem says_publish {row : Photo} (hrow : row ∈ rows) {text : Str}
    (htext : Labels row text) (app : Nat) :
    Says t (Labelled t rows (.str text)) (KafkaEventProducer.publishAnalysisRequested app
      row.photoId.text row.objectKey row.createdAt text)
      fun _ => Labelled t rows (.str text) := by
  unfold KafkaEventProducer.publishAnalysisRequested
  refine .seq _ (says_labelled ⟨nofun, nofun⟩ nofun) (fun self => ?_) fun _ _ _ h => h
  split
  next client hproducer hstarted =>
    have htold : ∀ value w, Labelled t rows (.str text) w →
        Text.utf8Encode (Json.dumps (KafkaEventProducer.payload row.photoId.text
          row.objectKey row.createdAt text)) = some value → w.Told value :=
      fun value w h hvalue => ⟨row, h.rows row hrow, text, htext, hvalue⟩
    generalize Json.dumps (KafkaEventProducer.payload row.photoId.text row.objectKey
      row.createdAt text) = message at htold ⊢
    generalize row.photoId.text = photoId
    refine .bind (fun value w => Text.utf8Encode message = some value ∧
      Labelled t rows (.str text) w) ?_ fun value => ?_
    · refine (says_encode message).post ?_
      rintro (exc | value) w _ h <;> exact h
    refine .assume fun hvalue => ?_
    refine .bind (fun _ => Labelled t rows (.str text)) ?_ fun key => ?_
    · refine (says_encode photoId).post ?_
      rintro (exc | key) w _ h
      · exact h
      · exact h.2
    · exact .call (fun _ => Labelled.steady) fun w _ _ _ _ hw h =>
        ⟨.send h (htold value w hw hvalue), hw.toReading.perform h nofun,
          (congrFun ((Keeps.perform h).traceId nofun) t).trans hw.traceId⟩
  next => exact .raise fun w _ h => h

theorem says_traceIdVar {text : Str} :
    Says t (Labelled t rows (.str text)) traceIdVar fun answer w =>
      answer = .ok text ∧ Labelled t rows (.str text) w := by
  unfold traceIdVar
  refine .bind (fun value w => value = .str text ∧ Labelled t rows (.str text) w) ?_
    fun value => ?_
  · suffices hget : Says t (Labelled t rows (.str text)) (wait .getTraceId)
        fun answer w => answer = .ok (.str text) ∧ Labelled t rows (.str text) w by
      refine hget.post ?_
      rintro answer w - ⟨rfl, h⟩
      exact ⟨rfl, h⟩
    refine .call ?_ ?_
    · intro answer w w' hrely hi h
      exact ⟨h.1, Labelled.steady hrely hi h.2⟩
    · rintro w choice answer w' - hw h
      refine ⟨.perform h nofun, ?_⟩
      rcases World.perform_cases h with ⟨exc, kept, hkept, -, -⟩ | ⟨exc, w₁, hw₁, -, -⟩ | h
      · cases hkept
      · cases hw₁
      · cases choice <;> cases h
        exact ⟨congrArg Except.ok hw.traceId, hw⟩
  · refine .assume ?_
    rintro rfl
    exact .ret fun w _ h => ⟨rfl, h⟩

theorem says_publishRow {row : Photo} (hrow : row ∈ rows) {text : Str}
    (htext : Labels row text) (app : Nat) :
    Says t (Labelled t rows (.str text)) (Outbox.publishRow app row)
      fun _ => Labelled t rows (.str text) := by
  refine .bind (fun found w => found = text ∧ Labelled t rows (.str text) w) ?_
    fun found => ?_
  · refine says_traceIdVar.post ?_
    rintro answer w - ⟨rfl, h⟩
    exact ⟨rfl, h⟩
  · refine .assume ?_
    rintro rfl
    refine .seq _ (says_publish hrow htext app) (fun _ => ?_) fun _ _ _ h => h
    refine .seq _ (says_labelled ⟨nofun, nofun⟩ nofun) (fun now => ?_) fun _ _ _ h => h
    exact .seq _ (says_labelled ⟨nofun, nofun⟩ nofun) (fun _ => .ret fun _ _ h => h)
      fun _ _ _ h => h

theorem says_setTraceId {value : Json} :
    Says t (Reading t rows) (wait (.setTraceId value)) fun answer w => match answer with
      | .ok _ => Labelled t rows value w
      | .error _ => Reading t rows w := by
  refine .call ?_ ?_
  · rintro (exc | token)
    · exact Reading.steady
    · exact Labelled.steady
  · rintro w choice answer w' - hw h
    refine ⟨.perform h nofun, ?_⟩
    have hw' := hw.perform h nofun
    cases answer with
    | error exc => exact hw'
    | ok token =>
        refine ⟨hw', ?_⟩
        rcases World.perform_cases h with ⟨_, _, _, heq, -⟩ | ⟨_, _, _, heq, -⟩ | h
        · cases heq
        · cases heq
        · cases choice <;> cases h
          exact Function.update_self ..

theorem says_publishRows {app : Nat} {todo : List Photo}
    (htodo : ∀ row ∈ todo, row ∈ rows) :
    Says t (Reading t rows) (Outbox.publishRows app todo) fun _ => Reading t rows := by
  induction todo with
  | nil => exact .ret fun w _ h => h
  | cons row todo ih =>
      have hrest := ih fun row' hrow' => htodo row' (List.mem_cons_of_mem row hrow')
      unfold Outbox.publishRows
      refine .bind (fun text w => Labels row text ∧ Reading t rows w) ?_ fun text => ?_
      · refine (says_rowTraceId row).post ?_
        rintro (exc | text) w _ h <;> exact h
      refine .assume fun htext => ?_
      refine .bind (fun _ => Labelled t rows (.str text)) ?_ fun token => ?_
      · refine says_setTraceId.post ?_
        rintro (exc | token) w _ h <;> exact h
      refine .seq (Reading t rows) ?_ (fun _ => hrest) fun _ _ _ h => h
      refine .tryFinally (fun _ => Reading t rows) ?_ fun outcome => ?_
      · refine .tryExcept (fun _ => Reading t rows) ?_ fun exc => ?_
        · refine (says_publishRow (htodo row List.mem_cons_self) htext app).post ?_
          rintro (exc | value) w _ h <;> exact h.toReading
        · split
          · exact says_reading ⟨(fun h => by cases h), fun _ h => by cases h⟩
          · exact .raise fun w _ h => h
      · refine .seq (Reading t rows)
          (says_reading ⟨(fun h => by cases h), fun _ h => by cases h⟩) (fun _ => .ret fun w _ h => h) fun _ _ _ h => h

/-- The rows of a query are rows the session sees. -/
theorem says_fetchUnpublished (limit : Nat) :
    Says t (Reading t []) (PhotoRepository.fetchUnpublished limit) fun answer w =>
      match answer with
      | .ok rows => Reading t rows w
      | .error _ => Reading t [] w := by
  refine .call ?_ ?_
  · rintro (exc | rows)
    · exact Reading.steady
    · exact Reading.steady
  · rintro w choice answer w' - hw h
    refine ⟨.perform h nofun, ?_⟩
    have hw' := hw.perform h nofun
    cases answer with
    | error exc => exact hw'
    | ok rows =>
        refine ⟨hw'.adds, fun row hrow => ?_⟩
        rcases World.perform_cases h with ⟨_, _, _, heq, -⟩ | ⟨_, _, _, heq, -⟩ | h
        · cases heq
        · cases heq
        · cases choice <;> try cases h
          obtain ⟨found, hfound, heq⟩ := Option.map_eq_some_iff.mp h
          cases heq
          exact hw.adds.photo (photo_of_unpublished hfound hrow)

theorem says_publishBatch (settings : Settings) (app : Nat) :
    Says t (Reading t []) (Outbox.publishBatch settings app) fun _ => Reading t [] := by
  refine .tryFinally (fun _ => Reading t []) ?_ fun outcome => ?_
  · refine .bind (Reading t) ?_ fun rows => ?_
    · refine (says_fetchUnpublished settings.outboxBatchSize).post ?_
      rintro (exc | rows) w _ h <;> exact h
    have hforget : ∀ w, Reading t rows w → Reading t [] w :=
      fun w h => ⟨h.adds, nofun⟩
    refine .seq (Reading t rows) (says_publishRows fun row hrow => hrow) (fun _ => ?_)
      fun exc w _ h => hforget w h
    exact .post (says_reading ⟨nofun, nofun⟩) fun _ w _ h => hforget w h
  · refine .post (says_reading ⟨nofun, nofun⟩) ?_
    rintro (exc | value) w _ h <;> exact h

theorem says_poll (settings : Settings) (app : Nat) :
    Says t (Reading t []) (Outbox.poll settings app) fun _ => Reading t [] := by
  refine .seq (Reading t []) (.attempt ?_) (fun outcome => ?_) fun _ _ _ h => h
  · exact .uses (ensureStarted_uses app) fun op hop => says_reading (.of_isLocal hop)
  cases outcome with
  | error exc =>
      dsimp only
      split
      · exact .ret fun w _ h => h
      · exact .raise fun w _ h => h
  | ok value =>
      refine .tryExcept (fun _ => Reading t []) ?_ fun exc => ?_
      · refine (says_publishBatch settings app).post ?_
        rintro (exc | value) w _ h <;> exact h
      · split
        · exact .ret fun w _ h => h
        · exact .raise fun w _ h => h

theorem says_turn (settings : Settings) (app : Nat) :
    Says t (Reading t []) (Outbox.turn settings app) fun _ => Reading t [] := by
  refine .seq (Reading t []) (says_reading ⟨nofun, nofun⟩) (fun stop => ?_) fun _ _ _ h => h
  split
  · exact .ret fun w _ h => h
  refine .seq (Reading t []) (says_poll settings app) (fun _ => ?_) fun _ _ _ h => h
  refine .seq (Reading t []) ?_ (fun _ => .ret fun w _ h => h) fun _ _ _ h => h
  refine .tryExcept (fun _ => Reading t []) ?_ fun exc => ?_
  · refine .post (says_reading ⟨nofun, nofun⟩) ?_
    rintro (exc | value) w _ h <;> exact h
  · split
    · exact .ret fun w _ h => h
    · exact .raise fun w _ h => h

/-! ## All schedules -/

theorem Speaks.opened (t : Tid) (entry : Entry) (w : World) :
    Speaks t w (w.opened t entry) :=
  ⟨fun _ hne => ⟨rfl, Function.update_of_ne hne .., .refl _⟩, .inl rfl⟩

theorem Speaks.closed (t : Tid) (outcome : Outcome) (w : World) :
    Speaks t w (w.closed t outcome) :=
  ⟨fun _ hne => ⟨(w.db.kept_finish _ hne).writes, rfl, .refl _⟩, .inl rfl⟩

theorem Spared.external (t : Tid) (event : World.External) (w : World) :
    Spared t w (w.external event) := by
  cases event <;> exact ⟨rfl, rfl, .refl _⟩

theorem speaks_turnPost {settings : Settings} {L : World → Prop}
    {outcome : Except PyExc (Option Reply)} (h : L w) :
    messages.TurnPost (system settings) t L outcome w := by
  rcases outcome with exc | (_ | reply)
  · exact .closed t _ w
  · exact h
  · exact .closed t _ w

/-- A program that sends nothing tells nothing wrong. -/
theorem says_silent {α : Type} {program : Py α}
    (h : program.Uses fun op => op.concern ≠ .send) :
    Says t (fun _ => True) program fun _ _ => True :=
  .uses h fun _ hop => .call (fun _ _ _ _ _ _ => trivial)
    fun _ _ _ _ _ _ hperform => ⟨.perform hperform hop, trivial⟩

theorem silent_safe {settings : Settings} {entry : Entry}
    (hsilent : Concern.send ∉ entry.concerns) :
    messages.SafeTask (system settings) t (routine settings entry).first
      (routine settings entry).loop w := by
  obtain ⟨hfirst, hloop⟩ := routine_within settings entry
  have hturn : ∀ program : Py (Option Reply), program.Uses (Op.Within entry.concerns) →
      ∀ w, messages.Safe World.perform t
        (messages.TurnPost (system settings) t fun _ => True) program w :=
    fun program h w => (says_silent (h.mono fun op hop => hop.ne hsilent nofun)).post
      (fun _ _ _ _ => speaks_turnPost trivial) w trivial trivial
  exact ⟨fun _ => True, fun _ _ _ _ h => h, fun w _ _ => hturn _ hloop w,
    fun w' _ _ => hturn _ hfirst w'⟩

theorem routine_speaks {settings : Settings} {entry : Entry}
    (hw : w.db.writes t = []) :
    messages.SafeTask (system settings) t (routine settings entry).first
      (routine settings entry).loop (w.opened t entry) := by
  cases entry with
  | outboxPublisher app =>
      have hturn : Says t (Reading t []) (Outbox.turn settings app)
          (messages.TurnPost (system settings) t (Reading t [])) :=
        (says_turn settings app).post fun _ _ _ h => speaks_turnPost h
      have hreading : Reading t [] (w.opened t (.outboxPublisher app)) := by
        refine ⟨?_, nofun⟩
        have hwrites : (w.opened t (.outboxPublisher app)).db.writes t = [] := hw
        rw [hwrites]
        exact fun row => List.not_mem_nil
      exact ⟨Reading t [], Reading.steady, fun w hi h => hturn w hi h,
        fun w' hrely hi => hturn w' hi (Reading.steady hrely hi hreading)⟩
  | _ => exact silent_safe (by simp [Entry.concerns])

theorem system_speaks (settings : Settings) :
    messages.Upholds (system settings) (fun t w => w.db.writes t = [])
      fun _ _ => True where
  idle_steady := fun _ _ _ hrely _ h => hrely.writes.trans h
  busy_steady := fun _ _ _ _ _ h => h
  busy_step := fun _ _ _ _ _ _ _ _ => trivial
  start := fun tid entry w _ hidle =>
    ⟨.opened tid entry w, trivial, routine_speaks hidle⟩
  crash := fun tid w _ _ => .closed tid none w
  external := fun event w _ => ⟨trivial, fun tid => .external tid event w⟩

/-- What a task is about to send is told. -/
theorem told_of_sending {settings : Settings} {state : State}
    (h : Reachable settings state) {client : ClientId} {value key : Bytes}
    {resume : Except PyExc Unit → Py (Option Reply)} {loop : Py (Option Reply)}
    (htask : state.tasks t = .running (.await (.sendAndWait client value key) resume) loop) :
    state.world.Told value := by
  have hpool : messages.SafePool (system settings) (fun t w => w.db.writes t = [])
      (fun _ _ => True) state := .leads (system_speaks settings)
    (.initial trivial fun _ => rfl) h
  have ht := hpool.tasks t
  rw [htask] at ht
  obtain ⟨-, L, -, -, hnow⟩ := ht
  obtain ⟨hguar, -⟩ := hnow.now messages trivial .ok (.ok ()) _ rfl
  rcases hguar.sends with hsame | ⟨value', key', acked, htopic, htold⟩
  · have hlength := congrArg List.length hsame
    simp [World.send] at hlength
  · have hrecord := List.append_cancel_left htopic
    simp only [List.cons.injEq, ConsumerRecord.mk.injEq, Option.some.injEq] at hrecord
    rw [hrecord.1.1]
    exact htold

end PhotoAnalysis
