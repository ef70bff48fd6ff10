import PhotoAnalysis.Foundation.JsonCodec
import PhotoAnalysis.Refinement.Facts

/-!
# The outbox publisher keeps its guarantee

A mark is written only after the record that announces its photo has been
acknowledged, whatever becomes of the transaction in between.
-/

namespace PhotoAnalysis

open Foundation Program

variable {M : Nat} {t : Tid} {arrival : Arrival} {own : Own}
variable {position : Nat}

/-! ## The producer object -/

theorem Op.isHarmless_of_isLocal {op : Op} (h : op.isLocal) : op.isHarmless := by
  cases op <;> first
    | rfl
    | cases h

theorem currentProducer_uses (app : Nat) :
    (KafkaEventProducer.currentProducer app).Uses (Op.isLocal ·) := by
  refine .bind (uses_call.mpr rfl) fun self => ?_
  split
  · exact uses_ret _
  · exact uses_call.mpr rfl

theorem ensureStarted_uses (app : Nat) :
    (KafkaEventProducer.ensureStarted app).Uses (Op.isLocal ·) := by
  refine .bind (uses_call.mpr rfl) fun self => ?_
  split
  · exact uses_ret _
  refine .bind (uses_call.mpr rfl) fun _ => .tryFinally ?_ (uses_call.mpr rfl)
  refine .bind (uses_call.mpr rfl) fun self => ?_
  split
  · exact uses_ret _
  refine .bind (currentProducer_uses app) fun producer => .bind (uses_call.mpr rfl)
    fun _ => .bind (.tryExcept (uses_call.mpr rfl) fun exc => ?_)
      fun _ => uses_call.mpr rfl
  split
  · exact .bind (uses_call.mpr rfl) fun _ => uses_raise _
  · exact uses_raise _

theorem stop_uses (app : Nat) :
    (KafkaEventProducer.stop app).Uses (Op.isLocal ·) := by
  exact .bind (uses_call.mpr rfl) fun self => uses_call.mpr rfl

/-! ## Rows and marks -/

/-- The photo is in the tables, and its trace id can be sent. -/
structure Ledger.Knows (L : Ledger) (row : Photo) : Prop where
  photo : ∃ p, L.tables.photo row.photoId = some p ∧ p.identity = row.identity
  traceId : ∀ traceId, row.traceId = some traceId → Json.Scalar traceId

theorem scalar_of_storable {s : Str} (h : Column.storable s) : Json.Scalar s := by
  intro c hc
  have hall := List.all_eq_true.mp h c hc
  simp only [Bool.and_eq_true] at hall
  exact hall.1

theorem scalar_text (id : UUID) : Json.Scalar id.text := by
  intro c hc
  have := UUID.mem_text hc
  simp only [Text.isScalar, Bool.and_eq_true, decide_eq_true_eq,
    Bool.not_eq_true', Bool.and_eq_false_iff, decide_eq_false_iff_not]
  omega

/-- Every photo that is in the tables is known. -/
theorem Inv.knows {L : Ledger} (hI : Inv M L) {id : UUID} {p : Photo}
    (hp : L.tables.photo id = some p) : L.Knows p := by
  have hid : p.photoId = id := Tables.photoId_of_photo hp
  refine ⟨⟨p, hid ▸ hp, rfl⟩, fun traceId htrace => ?_⟩
  obtain ⟨row, file, hrow, hcreated⟩ := hI.created id p hp
  obtain ⟨⟨p', hp', hidentity⟩, -, uploadId, batchId, hup⟩ := hI.stored row file hcreated
  rw [hrow, hp, Option.some.injEq] at hp'
  subst hp'
  obtain ⟨hstored, hfits⟩ := hup.traceId
  rw [← (Photo.identity_eq hidentity).2.2.2.2.1, htrace, Option.some.injEq] at hstored
  rw [hstored]
  exact scalar_of_storable (Column.storable_of_holds (Column.holds_cut hfits))

/-- A photo may be marked. -/
def Ledger.Due (L : Ledger) (mark : UUID × PhotoValues) : Prop :=
  (∃ time, mark.2 = PhotoRepository.publishedValues time) ∧
    ∃ p, L.tables.photo mark.1 = some p ∧ L.Delivered p

structure Ledger.Publishing (L : Ledger) (rows : List Photo)
    (marks : List (UUID × PhotoValues)) : Prop where
  rows : ∀ row ∈ rows, L.Knows row
  marks : ∀ mark ∈ marks, L.Due mark

theorem Growing.knows (row : Photo) : Growing M (Ledger.Knows · row) := by
  rintro L L' hI hg ⟨⟨p, hp, hidentity⟩, htrace⟩
  obtain ⟨q, hq, hqp, -⟩ := hg.photo hp
  exact ⟨⟨q, hq, hqp.trans hidentity⟩, htrace⟩

theorem Growing.due (mark : UUID × PhotoValues) :
    Growing M (Ledger.Due · mark) := by
  rintro L L' hI hg ⟨htime, p, hp, hd⟩
  obtain ⟨q, hq, hqp, -⟩ := hg.photo hp
  exact ⟨htime, q, hq, hd.mono hg hqp⟩

theorem Growing.publishing (rows : List Photo)
    (marks : List (UUID × PhotoValues)) :
    Growing M (Ledger.Publishing · rows marks) :=
  fun L L' hI hg h =>
    ⟨fun row hrow => Growing.knows row L L' hI hg (h.rows row hrow),
      fun mark hmark => Growing.due mark L L' hI hg (h.marks mark hmark)⟩

def markWrites (marks : List (UUID × PhotoValues)) : List Write :=
  marks.map fun mark => .setPhoto mark.1 mark.2

/-- Between two rows of a poll: the session holds marks that are due, if any. -/
def Marking (t : Tid) (arrival : Arrival) (position : Nat) (rows : List Photo)
    (w : World) : Prop :=
  ∃ traceId marks, At t arrival ⟨markWrites marks, position, traceId⟩
    (Ledger.Publishing · rows marks) w

theorem Dropped.marking {w : World} {traceId : Json} {rows : List Photo}
    {marks : List (UUID × PhotoValues)}
    (h : Dropped t arrival ⟨markWrites marks, position, traceId⟩
      (Ledger.Publishing · rows marks) w) : Marking t arrival position rows w := by
  rcases h with h | h
  · exact ⟨traceId, marks, h⟩
  · exact ⟨traceId, [], h.mono fun h => ⟨h.rows, by simp⟩⟩

/-! ## One row -/

section

variable {rows : List Photo} {row : Photo} {marks : List (UUID × PhotoValues)}

theorem rowTraceId_spec (hrow : row ∈ rows) {traceId : Json} :
    Spec M t (At t arrival ⟨markWrites marks, position, traceId⟩
        (Ledger.Publishing · rows marks)) (Outbox.rowTraceId row)
      fun answer w => match answer with
      | .ok text => Json.Scalar text ∧
          At t arrival ⟨markWrites marks, position, traceId⟩
            (Ledger.Publishing · rows marks) w
      | .error _ => False := by
  have hgrow := Growing.publishing (M := M) rows marks
  unfold Outbox.rowTraceId
  split
  next c rest htrace =>
    exact .ret fun w hI h => ⟨(h.fact.rows row hrow).traceId _ htrace, h⟩
  next =>
    refine .bind (fun id => At t arrival ⟨markWrites marks, position, traceId⟩
      (Ledger.Publishing · rows marks)) ?_
      fun id => .ret fun w hI h => ⟨scalar_text id, h⟩
    refine (spec_uuid4 (.of_growing hgrow) (fun _ => .of_growing hgrow)
      fun L id hI hk hk' _ _ _ => hk').post ?_
    rintro (exc | id) w hI h
    · exact h
    · exact h

theorem announces_of_knows {L : Ledger} (h : L.Knows row) {traceId : Str}
    (htrace : Json.Scalar traceId) (value key : Bytes)
    (hvalue : Text.utf8Encode (Json.dumps (KafkaEventProducer.payload
      row.photoId.text row.objectKey row.createdAt traceId)) = some value) :
    ∃ p, L.tables.photo row.photoId = some p ∧
      Announces ⟨some value, some key, true⟩ p := by
  obtain ⟨p, hp, hidentity⟩ := h.photo
  obtain ⟨hid, -, hkey, -⟩ := Photo.identity_eq hidentity
  exact ⟨p, hp, row.createdAt, traceId, htrace, by rw [hid, hkey]; exact hvalue.symm⟩

/-- After the send the row's mark is due. -/
theorem publishAnalysisRequested_spec (hrow : row ∈ rows) {app : Nat}
    {traceId : Str} (htrace : Json.Scalar traceId) :
    Spec M t (At t arrival ⟨markWrites marks, position, .str traceId⟩
        (Ledger.Publishing · rows marks))
      (KafkaEventProducer.publishAnalysisRequested app row.photoId.text
        row.objectKey row.createdAt traceId) fun answer w => match answer with
      | .ok _ => At t arrival ⟨markWrites marks, position, .str traceId⟩ (fun L =>
          L.Publishing rows marks ∧
            ∃ p, L.tables.photo row.photoId = some p ∧ L.Delivered p) w
      | .error _ => Marking t arrival position rows w := by
  have hgrow := Growing.publishing (M := M) rows marks
  have hdue : Growing M fun L =>
      ∃ p, L.tables.photo row.photoId = some p ∧ L.Delivered p := by
    rintro L L' hI hg ⟨p, hp, hd⟩
    obtain ⟨q, hq, hqp, -⟩ := hg.photo hp
    exact ⟨q, hq, hd.mono hg hqp⟩
  unfold KafkaEventProducer.publishAnalysisRequested
  refine .seq _ (spec_local rfl (.of_growing hgrow)) (fun self => ?_)
    fun exc w hI h => ⟨_, _, h⟩
  split
  next client hproducer hstarted =>
    have hannounces := fun (L : Ledger) (h : L.Knows row) (value key : Bytes) =>
      announces_of_knows h htrace value key
    generalize Json.dumps (KafkaEventProducer.payload row.photoId.text
      row.objectKey row.createdAt traceId) = payload at hannounces ⊢
    generalize row.photoId.text = photoId
    refine .bind (fun value w => Text.utf8Encode payload = some value ∧
      At t arrival ⟨markWrites marks, position, .str traceId⟩
        (Ledger.Publishing · rows marks) w) ?_ fun value => ?_
    · unfold KafkaEventProducer.encodeUtf8
      split
      next hvalue => exact .ret fun w hI h => ⟨hvalue, h⟩
      next => exact .raise fun w hI h => ⟨_, _, h⟩
    refine .assume fun hvalue => ?_
    refine .bind (fun _ => At t arrival ⟨markWrites marks, position, .str traceId⟩
      (Ledger.Publishing · rows marks)) ?_ fun key => ?_
    · unfold KafkaEventProducer.encodeUtf8
      split
      next => exact .ret fun w hI h => h
      next => exact .raise fun w hI h => ⟨_, _, h⟩
    refine (spec_sendAndWait hgrow (.of_growing (hgrow.and hdue)) ?_ ?_).post ?_
    · intro L hI h
      exact ⟨_, hannounces L (h.rows row hrow) value key hvalue⟩
    · intro L hI h
      have hsend := hannounces L (h.rows row hrow) value key hvalue
      have hact : Act M t L (L.append ⟨some value, some key, true⟩) :=
        .send fun _ => ⟨_, hsend⟩
      obtain ⟨p, hp, hp'⟩ := hsend
      refine ⟨hgrow L _ hI (hact.grows hI) h, p, hp, _, ?_, rfl, hp'⟩
      exact List.mem_append_right _ List.mem_cons_self
    · rintro (exc | value) w hI h
      · exact ⟨_, _, h⟩
      · exact h
  next => exact .raise fun w hI h => ⟨_, _, h⟩

theorem markPublished_spec {traceId : Json} :
    Spec M t (At t arrival ⟨markWrites marks, position, traceId⟩ (fun L =>
        L.Publishing rows marks ∧
          ∃ p, L.tables.photo row.photoId = some p ∧ L.Delivered p))
      (PhotoRepository.markPublished row.photoId)
      fun _ => Marking t arrival position rows := by
  have hgrow := Growing.publishing (M := M) rows marks
  have hdue : Growing M fun L =>
      ∃ p, L.tables.photo row.photoId = some p ∧ L.Delivered p := by
    rintro L L' hI hg ⟨p, hp, hd⟩
    obtain ⟨q, hq, hqp, -⟩ := hg.photo hp
    exact ⟨q, hq, hd.mono hg hqp⟩
  unfold PhotoRepository.markPublished
  refine .seq _ (spec_local rfl (.of_growing (hgrow.and hdue))) (fun time => ?_)
    fun exc w hI h => ⟨_, _, h.mono fun h => h.1⟩
  refine .seq _ ?_ (fun _ => .ret fun w hI h => h) fun exc w hI h => h
  refine (spec_execute (N := (Ledger.Publishing · rows marks))
    (W := fun write L => write = .setPhoto row.photoId
        (PhotoRepository.publishedValues time) ∧ L.Publishing rows
          (marks ++ [(row.photoId, PhotoRepository.publishedValues time)]))
    (E := fun _ => (Ledger.Publishing · rows marks)) (.of_growing hgrow)
    (fun write => (Lasting.const _).and (.of_growing (.publishing _ _)))
    (fun _ => .of_growing hgrow) (fun L now hI h _ => h.1) ?_ ?_).post ?_
  · rintro L now write hI ⟨h, hdue⟩ hres
    simp only [Stmt.resolve] at hres
    split at hres
    · cases hres
    split at hres
    · cases hres
    split at hres
    · split at hres <;> cases hres
      refine ⟨rfl, h.rows, fun mark hmark => ?_⟩
      rcases List.mem_append.mp hmark with hmark | hmark
      · exact h.marks mark hmark
      · rw [List.mem_singleton.mp hmark]
        exact ⟨⟨time, rfl⟩, hdue⟩
    · cases hres
  · exact fun L exc hI h => hgrow L _ hI (.note L _) h.1
  · rintro (exc | rowcount) w hI h
    · exact h.marking
    · rcases h with ⟨-, hat⟩ | ⟨-, write, hat⟩
      · exact ⟨_, _, hat⟩
      · obtain ⟨rfl, h⟩ := hat.fact
        refine ⟨traceId, marks ++
          [(row.photoId, PhotoRepository.publishedValues time)], ?_⟩
        have hwrites : (⟨markWrites marks, position, traceId⟩ : Own).add
            (.setPhoto row.photoId (PhotoRepository.publishedValues time)) =
            ⟨markWrites (marks ++
              [(row.photoId, PhotoRepository.publishedValues time)]),
              position, traceId⟩ := by
          simp [Own.add, markWrites]
        rw [← hwrites]
        exact hat.mono fun _ => h

theorem publishRow_spec (hrow : row ∈ rows) {app : Nat} {traceId : Str}
    (htrace : Json.Scalar traceId) :
    Spec M t (At t arrival ⟨markWrites marks, position, .str traceId⟩
        (Ledger.Publishing · rows marks)) (Outbox.publishRow app row)
      fun _ => Marking t arrival position rows := by
  have hgrow := Growing.publishing (M := M) rows marks
  refine .bind (fun value w => value = traceId ∧
    At t arrival ⟨markWrites marks, position, .str traceId⟩
      (Ledger.Publishing · rows marks) w) ?_ fun value => ?_
  · refine (spec_traceIdVar rfl (.of_growing hgrow)).post ?_
    rintro answer w hI ⟨rfl, hat⟩
    exact ⟨rfl, hat⟩
  refine .assume ?_
  rintro rfl
  refine .bind (fun _ => At t arrival ⟨markWrites marks, position, .str value⟩
    fun L => L.Publishing rows marks ∧
      ∃ p, L.tables.photo row.photoId = some p ∧ L.Delivered p) ?_
    fun _ => markPublished_spec
  refine (publishAnalysisRequested_spec hrow htrace).post ?_
  rintro (exc | value) w hI h <;> exact h

theorem Marking.setTraceId {value : Json} :
    Spec M t (Marking t arrival position rows) (wait (.setTraceId value))
      fun _ => Marking t arrival position rows := by
  refine .exists_ fun traceId => .exists_ fun marks => ?_
  exact (spec_setTraceId (.of_growing (.publishing rows marks))).post
    fun answer w hI h => ⟨_, _, h⟩

theorem Marking.count {metric : Metric} {amount : Int} :
    Spec M t (Marking t arrival position rows) (wait (.count metric amount))
      fun _ => Marking t arrival position rows := by
  refine .exists_ fun traceId => .exists_ fun marks => ?_
  exact (spec_local rfl (.of_growing (.publishing rows marks))).post
    fun answer w hI h => ⟨_, _, h⟩

theorem publishRows_spec {app : Nat} {todo : List Photo}
    (htodo : ∀ row ∈ todo, row ∈ rows) :
    Spec M t (Marking t arrival position rows) (Outbox.publishRows app todo)
      fun _ => Marking t arrival position rows := by
  induction todo with
  | nil => exact .ret fun w hI h => h
  | cons row todo ih =>
      have hrest := ih fun row' hrow' => htodo row' (List.mem_cons_of_mem row hrow')
      have hrow : row ∈ rows := htodo row List.mem_cons_self
      unfold Outbox.publishRows
      refine .exists_ fun traceId => .exists_ fun marks => ?_
      refine .bind (fun text w => Json.Scalar text ∧
        At t arrival ⟨markWrites marks, position, traceId⟩
          (Ledger.Publishing · rows marks) w) ?_ fun text => ?_
      · refine (rowTraceId_spec hrow).post ?_
        rintro (exc | text) w hI h
        · exact h.elim
        · exact h
      refine .assume fun htext => ?_
      refine .seq _ (spec_setTraceId (.of_growing (.publishing rows marks)))
        (fun token => ?_) fun exc w hI h => ⟨_, _, h⟩
      refine .seq (Marking t arrival position rows) ?_ (fun _ => hrest)
        fun exc w hI h => h
      refine .tryFinally (fun _ => Marking t arrival position rows) ?_ fun outcome => ?_
      · refine .tryExcept (fun _ => Marking t arrival position rows) ?_ fun exc => ?_
        · refine (publishRow_spec hrow htext).post ?_
          rintro (exc | value) w hI h <;> exact h
        · split
          · exact Marking.count
          · exact .raise fun w hI h => h
      · refine .seq _ Marking.setTraceId (fun _ => .ret fun w hI h => h)
          fun exc w hI h => h

end

/-! ## One poll -/

theorem mem_of_inOrder {before : Photo → Photo → Bool} {rows listed : List Photo}
    {order : List UUID} (h : Query.inOrder before rows order = some listed)
    {p : Photo} (hp : p ∈ listed) : p ∈ rows := by
  simp only [Query.inOrder] at h
  split at h
  · cases h
    obtain ⟨id, -, hfind⟩ := List.mem_filterMap.mp hp
    exact List.mem_of_find?_eq_some hfind
  · cases h

/-- The rows in the order they are listed in, each of them once. -/
theorem perm_of_inOrder {before : Photo → Photo → Bool} {rows listed : List Photo}
    {order : List UUID} (h : Query.inOrder before rows order = some listed) :
    listed.Perm rows ∧ listed.Pairwise (before · ·) := by
  have hmem : ∀ p ∈ listed, p ∈ rows := fun p hp => mem_of_inOrder h hp
  simp only [Query.inOrder] at h
  split at h
  next hchecks =>
    obtain ⟨hids, hnodup, hlength, hsorted⟩ := hchecks
    cases h
    refine ⟨?_, hsorted⟩
    have hlisted : (order.filterMap fun id => rows.find? (·.photoId = id)).Nodup := by
      refine .of_map Photo.photoId ?_
      rw [hids]
      exact hnodup
    exact (List.subperm_of_subset hlisted hmem).perm_of_length_le hlength.ge
  next => cases h

theorem photo_of_unpublished {T : Tables} {limit : Nat} {order : List UUID}
    {rows : List Photo} (h : Query.answer T order (.unpublished limit) = some rows)
    {p : Photo} (hp : p ∈ rows) : T.photo p.photoId = some p := by
  obtain ⟨listed, hlisted, rfl⟩ := Option.map_eq_some_iff.mp h
  have hmem := mem_of_inOrder hlisted (List.mem_of_mem_take hp)
  exact Table.find_of_mem (List.mem_of_mem_filter hmem)

theorem publishBatch_spec (settings : Settings) (app : Nat) :
    Spec M t (Clean t arrival position fun _ => True)
      (Outbox.publishBatch settings app)
      fun _ => Clean t arrival position fun _ => True := by
  refine withSession_spec (.const True) ?_
  refine .exists_ fun traceId => ?_
  refine .bind (Marking t arrival position) ?_ fun rows => ?_
  · refine (spec_select (.unpublished settings.outboxBatchSize)
      (J := fun rows => (Ledger.Publishing · rows []))
      (E := fun _ _ => True) (fun rows => .of_growing (.publishing rows []))
      (fun _ => .const True) ?_ fun _ _ _ _ => trivial).post ?_
    · intro L order rows hI _ hrows
      exact ⟨fun row hrow => hI.knows (photo_of_unpublished hrows hrow), by simp⟩
    · rintro (exc | rows) w hI h
      · exact h.adrift
      · exact ⟨traceId, [], h⟩
  · refine .seq _ (publishRows_spec fun row hrow => hrow) (fun _ => ?_) ?_
    · refine .exists_ fun traceId => .exists_ fun marks => ?_
      refine (spec_commit (J := fun _ => True) (E := fun _ _ => True)
        (.const True) (fun _ => .const True) (fun L _ _ h => .publish h.marks)
        (fun _ _ _ _ => trivial) (fun _ _ _ _ => trivial)
        fun _ _ _ _ _ => trivial).post ?_
      rintro (exc | value) w hI h
      · exact h.adrift
      · exact h.adrift
    · rintro exc w hI ⟨traceId, marks, h⟩
      exact h.adrift.mono fun _ => trivial

theorem poll_spec (settings : Settings) (app : Nat) :
    Spec M t (Clean t arrival position fun _ => True)
      (Outbox.poll settings app)
      fun _ => Clean t arrival position fun _ => True := by
  refine .seq (Clean t arrival position fun _ => True) (.attempt ?_)
    (fun outcome => ?_) fun exc w hI h => h
  · refine .exists_ fun traceId => ?_
    refine (Discipline.Triple.uses (ensureStarted_uses app) fun op hop =>
      spec_local hop (.const True)).post fun outcome w hI h => ⟨traceId, h⟩
  cases outcome with
  | error exc =>
      dsimp only
      split
      · exact .ret fun w hI h => h
      · exact .raise fun w hI h => h
  | ok value =>
      refine .tryExcept (fun _ => Clean t arrival position fun _ => True) ?_
        fun exc => ?_
      · refine (publishBatch_spec settings app).post ?_
        rintro (exc | value) w hI h <;> exact h
      · split
        · exact .ret fun w hI h => h
        · exact .raise fun w hI h => h

theorem outboxTurn_spec (settings : Settings) (app : Nat) :
    Spec M t (Clean t arrival position fun _ => True)
      (Outbox.turn settings app)
      fun _ => Clean t arrival position fun _ => True := by
  have hlocal : ∀ op : Op, op.isLocal →
      Spec M t (Clean t arrival position fun _ => True) (wait op)
        fun _ => Clean t arrival position fun _ => True := fun op hop =>
    .exists_ fun traceId => (spec_local hop (.const True)).post
      fun outcome w hI h => ⟨traceId, h⟩
  refine .seq _ (hlocal _ rfl) (fun stop => ?_) fun exc w hI h => h
  split
  · exact .ret fun w hI h => h
  refine .seq _ (poll_spec settings app) (fun _ => ?_) fun exc w hI h => h
  refine .seq (Clean t arrival position fun _ => True) ?_
    (fun _ => .ret fun w hI h => h) fun exc w hI h => h
  refine .tryExcept (fun _ => Clean t arrival position fun _ => True) ?_
    fun exc => ?_
  · refine (hlocal _ rfl).post ?_
    rintro (exc | value) w hI h <;> exact h
  · split
    · exact .ret fun w hI h => h
    · exact .raise fun w hI h => h

end PhotoAnalysis
