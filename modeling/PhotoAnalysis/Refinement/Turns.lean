import PhotoAnalysis.Foundation.Execution
import PhotoAnalysis.Refinement.Sending

/-!
# The publisher among others

What each operation of the publisher finds and leaves in its session, and what
becomes of a row, whatever the other tasks do in between.
-/

namespace PhotoAnalysis

open Foundation Program

/-- Task `t` among tasks that spare it. -/
def among (t : Tid) : Scene Op Op.Ans PyExc Choice World :=
  ⟨World.perform t, Spared t⟩

abbrev Moments := List (Moment Op Op.Ans PyExc World)

namespace Op

def isDatabase : Op → Bool
  | execute _ | select _ | commit | rollback | close => true
  | _ => false

/-- It returns, and changes nothing a session is about. -/
def isPrompt : Op → Bool
  | uuid4 | utcnow | getTraceId | count _ _ | readProducer _ | stopIsSet => true
  | _ => false

/-- What a row is tried with, apart from the send. -/
def isInner : Op → Bool
  | setTraceId _ | execute _ => true
  | op => op.isPrompt

theorem isInner_of_isPrompt {op : Op} (h : op.isPrompt) : op.isInner := by
  cases op <;> first
    | rfl
    | cases h

theorem concern_of_isInner {op : Op} (h : op.isInner) : op.concern ≠ .send := by
  cases op <;> first
    | (cases h; done)
    | exact nofun

end Op

section

variable {t : Tid} {op : Op} {choice : Choice} {answer : Except PyExc op.Ans}
variable {w w' : World}

theorem db_of_perform (hop : op.isDatabase = false)
    (h : World.perform t op choice w = some (answer, w')) : w'.db = w.db := by
  rcases World.perform_cases h with ⟨exc, kept, hcan, -, rfl⟩ | ⟨exc, w₁, hw₁, -, rfl⟩ | h
  · have hkept : kept = true := by
      cases op <;> simp_all [Op.isDatabase, Op.canFail]
    subst hkept
    rfl
  · cases op <;> first
      | (cases hw₁; done)
      | (cases hw₁; rfl)
      | cases hop
  · cases op with
    | uuid4 | getObject _ | acquireStartLock _ | sleep _ | waitStop | getone =>
        cases choice <;> try cases h
        simp only [World.answer] at h
        split at h <;> cases h <;> rfl
    | execute _ | select _ | commit | rollback | close => cases hop
    | _ =>
        cases choice <;> cases h
        rfl

theorem returns_of_isPrompt (hop : op.isPrompt)
    (h : World.perform t op choice w = some (answer, w')) :
    ∃ value, answer = .ok value := by
  rcases World.perform_cases h with ⟨exc, kept, hcan, -, -⟩ | ⟨exc, w₁, hw₁, -, -⟩ | h
  · cases op <;> first
      | (cases hop; done)
      | cases hcan
  · cases op <;> first
      | (cases hop; done)
      | cases hw₁
  · cases op with
    | uuid4 =>
        cases choice <;> try cases h
        simp only [World.answer] at h
        split at h <;> cases h
        exact ⟨_, rfl⟩
    | utcnow | getTraceId | count _ _ | readProducer _ | stopIsSet =>
        cases choice <;> cases h
        exact ⟨_, rfl⟩
    | _ => cases hop

/-- Only a commit changes what is committed. -/
theorem committed_of_perform (hop : op ≠ .commit)
    (h : World.perform t op choice w = some (answer, w')) :
    w'.db.committed = w.db.committed := by
  by_cases hdb : op.isDatabase = false
  · rw [db_of_perform hdb h]
  rcases World.perform_cases h with ⟨exc, kept, -, -, rfl⟩ | ⟨exc, w₁, hw₁, -, rfl⟩ | h
  · cases kept <;> rfl
  · cases op <;> first
      | (cases hw₁; done)
      | exact absurd rfl hop
      | exact absurd rfl hdb
  · cases op with
    | execute stmt =>
        cases choice <;> try cases h
        simp only [World.answer, World.execute] at h
        split at h
        · cases h
          rfl
        · cases h
          rfl
        · split at h <;> cases h
          rfl
    | select query =>
        cases choice <;> try cases h
        obtain ⟨rows, -, heq⟩ := Option.map_eq_some_iff.mp h
        cases heq
        rfl
    | rollback | close =>
        cases choice <;> cases h
        rfl
    | commit => exact absurd rfl hop
    | _ => exact absurd rfl hdb

end

/-! ## The session of a task -/

/-- The open writes of `t`, its trace id, and rows that are in the tables. -/
structure Session (t : Tid) (ws : List Write) (traceId : Json) (rows : List Photo)
    (w : World) : Prop where
  writes : w.db.writes t = ws
  traceId : w.traceId t = traceId
  rows : ∀ row ∈ rows, w.Knows row

structure Calm (moment : Moment Op Op.Ans PyExc World) : Prop where
  prompt : moment.op.isPrompt
  returns : ∃ value, moment.answer = .ok value

theorem Calm.inner {moment : Moment Op Op.Ans PyExc World} (h : Calm moment) :
    moment.op.isInner :=
  Op.isInner_of_isPrompt h.prompt

section

variable {t : Tid} {ws : List Write} {traceId : Json} {rows : List Photo}
variable {w w' : World} {moments : Moments}

theorem Session.spared (h : Session t ws traceId rows w) (hspared : Spared t w w') :
    Session t ws traceId rows w' :=
  ⟨hspared.writes.trans h.writes, hspared.traceId.trans h.traceId,
    fun row hrow => (h.rows row hrow).keep hspared.photos⟩

/-- An operation that changes neither the writes nor the trace id. -/
theorem Session.perform {op : Op} {choice : Choice} {answer : Except PyExc op.Ans}
    (h : Session t ws traceId rows w)
    (hperform : World.perform t op choice w = some (answer, w'))
    (hdb : op.isDatabase = false) (htrace : op.concern ≠ .traceId) :
    Session t ws traceId rows w' := by
  have hsame := db_of_perform hdb hperform
  refine ⟨by rw [hsame, h.writes], ?_, fun row hrow => ?_⟩
  · exact (congrFun ((Keeps.perform hperform).traceId htrace) t).trans h.traceId
  · exact (h.rows row hrow).keep (Transacts.perform hperform).keep

theorem Session.of_prompt {op : Op} {outcome : Except PyExc op.Ans} (hop : op.isPrompt)
    (h : Executes (among t) (wait op) w moments outcome w')
    (hs : Session t ws traceId rows w) :
    ∃ before value, moments = [⟨before, op, .ok value, w'⟩] ∧ outcome = .ok value ∧
      Session t ws traceId rows before ∧ Session t ws traceId rows w' ∧
      Calm ⟨before, op, .ok value, w'⟩ := by
  obtain ⟨before, choice, rfl, hspared, hperform⟩ := Executes.of_call h
  obtain ⟨value, rfl⟩ := returns_of_isPrompt hop hperform
  have hbefore := hs.spared hspared
  refine ⟨before, value, rfl, rfl, hbefore, hbefore.perform hperform ?_ ?_, hop, value,
    rfl⟩
  all_goals cases op <;> first
    | (cases hop; done)
    | rfl
    | exact nofun

theorem Session.of_setTraceId {value : Json} {outcome : Except PyExc Json}
    (h : Executes (among t) (wait (.setTraceId value)) w moments outcome w')
    (hs : Session t ws traceId rows w) :
    ∃ before, moments = [⟨before, .setTraceId value, .ok traceId, w'⟩] ∧
      outcome = .ok traceId ∧ Session t ws value rows w' := by
  obtain ⟨before, choice, rfl, hspared, hperform⟩ := Executes.of_call h
  have hbefore := hs.spared hspared
  rcases World.perform_cases hperform with ⟨_, _, hcan, -⟩ | ⟨_, _, hhalf, -⟩ | hanswer
  · cases hcan
  · cases hhalf
  · cases choice <;> cases hanswer
    rw [hbefore.traceId]
    refine ⟨before, rfl, rfl, hbefore.writes, Function.update_self .., ?_⟩
    exact fun row hrow => (hbefore.rows row hrow).keep (.refl _)

theorem Session.of_reset {value : Json} {outcome : Except PyExc Unit}
    (h : Executes (among t) (do let _ ← wait (.setTraceId value)) w moments outcome w')
    (hs : Session t ws traceId rows w) :
    ∃ before, moments = [⟨before, .setTraceId value, .ok traceId, w'⟩] ∧
      outcome = .ok () ∧ Session t ws value rows w' := by
  rcases Executes.of_bind h with ⟨_, reset, w₁, none, hreset, hnone, rfl⟩ |
    ⟨exc, rfl, hreset⟩
  · obtain ⟨rfl, rfl, rfl⟩ := Executes.of_ret hnone
    obtain ⟨before, rfl, -, hs₁⟩ := hs.of_setTraceId hreset
    exact ⟨before, rfl, rfl, hs₁⟩
  · obtain ⟨_, _, heq, -⟩ := hs.of_setTraceId hreset
    cases heq

/-! ## The programs of a row -/

theorem of_rowTraceId {row : Photo} {outcome : Except PyExc Str}
    (h : Executes (among t) (Outbox.rowTraceId row) w moments outcome w')
    (hs : Session t ws traceId rows w) :
    ∃ text, outcome = .ok text ∧ Labels row text ∧ (∀ moment ∈ moments, Calm moment) ∧
      Session t ws traceId rows w' := by
  unfold Outbox.rowTraceId at h
  split at h
  next c rest htrace =>
    obtain ⟨rfl, rfl, rfl⟩ := Executes.of_ret h
    refine ⟨c :: rest, rfl, fun stored hstored _ => ?_, List.forall_mem_nil _, hs⟩
    exact Option.some.inj (htrace.symm.trans hstored)
  next hnone =>
    rcases Executes.of_bind h with ⟨id, first, middle, last, hfirst, hlast, rfl⟩ |
      ⟨exc, rfl, hfirst⟩
    · obtain ⟨before, value, rfl, -, -, hs', hcalm⟩ := hs.of_prompt rfl hfirst
      obtain ⟨rfl, rfl, rfl⟩ := Executes.of_ret hlast
      refine ⟨_, rfl, fun stored hstored hne => ?_, by simpa using hcalm, hs'⟩
      obtain ⟨c, rest, rfl⟩ := List.exists_cons_of_ne_nil hne
      exact absurd hstored (hnone c rest)
    · obtain ⟨_, _, _, heq, -⟩ := hs.of_prompt rfl hfirst
      cases heq

theorem of_traceIdVar {text : Str} {outcome : Except PyExc Str}
    (h : Executes (among t) traceIdVar w moments outcome w')
    (hs : Session t ws (.str text) rows w) :
    outcome = .ok text ∧ (∀ moment ∈ moments, Calm moment) ∧
      Session t ws (.str text) rows w' := by
  unfold traceIdVar at h
  have hread : ∀ {first : Moments} {middle : World} {read : Except PyExc Json},
      Executes (among t) (wait .getTraceId) w first read middle →
        read = .ok (.str text) ∧ (∀ moment ∈ first, Calm moment) ∧
          Session t ws (.str text) rows middle := by
    intro first middle read hfirst
    obtain ⟨before, value, rfl, rfl, hbefore, hs', hcalm⟩ := hs.of_prompt rfl hfirst
    obtain ⟨_, choice, heq, -, hperform⟩ := Executes.of_call hfirst
    cases heq
    refine ⟨?_, by simpa using hcalm, hs'⟩
    rcases World.perform_cases hperform with ⟨_, _, hcan, -⟩ | ⟨_, _, hhalf, -⟩ | hanswer
    · cases hcan
    · cases hhalf
    · cases choice <;> cases hanswer
      rw [hbefore.traceId]
  rcases Executes.of_bind h with ⟨value, first, middle, last, hfirst, hlast, rfl⟩ |
    ⟨exc, rfl, hfirst⟩
  · obtain ⟨heq, hcalm, hs'⟩ := hread hfirst
    cases heq
    obtain ⟨rfl, rfl, rfl⟩ := Executes.of_ret hlast
    exact ⟨rfl, by simpa using hcalm, hs'⟩
  · obtain ⟨heq, -⟩ := hread hfirst
    cases heq

/-- The message of a row can always be encoded. -/
theorem encodes_message (entries : List (Str × Str)) :
    ∃ bytes, Text.utf8Encode (Json.dumps entries) = some bytes :=
  ⟨_, Text.utf8Encode_ascii (Json.dumps_ascii entries)⟩

theorem encodes_photoId (id : UUID) : ∃ bytes, Text.utf8Encode id.text = some bytes := by
  refine ⟨_, Text.utf8Encode_ascii fun c hc => ?_⟩
  have := UUID.mem_text hc
  simp only [Text.isAscii, decide_eq_true_eq]
  omega

/-- The producer of process `app` is started. -/
def World.Started (w : World) (app : Nat) : Prop :=
  (w.producers app).started = true ∧ (w.producers app).producer.isSome = true

theorem of_readProducer {app : Nat} {outcome : Except PyExc KafkaEventProducer}
    (h : Executes (among t) (wait (.readProducer app)) w moments outcome w')
    (hs : Session t ws traceId rows w)
    (hstarted : ∀ moment ∈ moments, moment.before.Started app) :
    ∃ self client, outcome = .ok self ∧ self.started = true ∧
      self.producer = some client ∧ (∀ moment ∈ moments, Calm moment) ∧
      Session t ws traceId rows w' := by
  obtain ⟨before, self, rfl, rfl, -, hs', hcalm⟩ := hs.of_prompt rfl h
  obtain ⟨_, choice, heq, -, hperform⟩ := Executes.of_call h
  cases heq
  have hself : self = before.producers app := by
    rcases World.perform_cases hperform with ⟨_, _, hcan, -⟩ | ⟨_, _, hhalf, -⟩ | hanswer
    · cases hcan
    · cases hhalf
    · cases choice <;> cases hanswer
      rfl
  obtain ⟨hon, hsome⟩ := hstarted _ List.mem_cons_self
  obtain ⟨client, hclient⟩ := Option.isSome_iff_exists.mp hsome
  exact ⟨self, client, rfl, hself ▸ hon, hself ▸ hclient, by simpa using hcalm, hs'⟩

/-- The send at which a row is announced. -/
structure Sending where
  before : World
  client : ClientId
  value : Bytes
  key : Bytes
  answer : Except PyExc Unit
  after : World

def Sending.moment (sending : Sending) : Moment Op Op.Ans PyExc World :=
  ⟨sending.before, .sendAndWait sending.client sending.value sending.key,
    sending.answer, sending.after⟩

/-- It carries the event of a row, under the trace id that the row asks for. -/
def Sending.Announces (sending : Sending) (row : Photo) : Prop :=
  ∃ text, Labels row text ∧
    Text.utf8Encode (Json.dumps (KafkaEventProducer.payload row.photoId.text row.objectKey
      row.createdAt text)) = some sending.value ∧
    Text.utf8Encode row.photoId.text = some sending.key

theorem of_publishAnalysisRequested {app : Nat} {row : Photo} {text : Str}
    {outcome : Except PyExc Unit} (htext : Labels row text)
    (h : Executes (among t) (KafkaEventProducer.publishAnalysisRequested app
      row.photoId.text row.objectKey row.createdAt text) w moments outcome w')
    (hs : Session t ws traceId rows w)
    (hstarted : ∀ moment ∈ moments, moment.before.Started app) :
    ∃ (first : Moments) (sending : Sending), moments = first ++ [sending.moment] ∧
      sending.Announces row ∧ sending.answer = outcome ∧
      (∀ moment ∈ first, Calm moment) ∧ Session t ws traceId rows w' := by
  unfold KafkaEventProducer.publishAnalysisRequested at h
  rcases Executes.of_bind h with ⟨self, first, middle, last, hfirst, hlast, rfl⟩ |
    ⟨exc, rfl, hfirst⟩
  · obtain ⟨_, client, heq, hon, hclient, hcalm, hs'⟩ := of_readProducer hfirst hs
      fun moment hmem => hstarted moment (List.mem_append_left _ hmem)
    cases heq
    obtain ⟨value, hvalue⟩ := encodes_message (KafkaEventProducer.payload
      row.photoId.text row.objectKey row.createdAt text)
    obtain ⟨key, hkey⟩ := encodes_photoId row.photoId
    simp only [hon, hclient, KafkaEventProducer.encodeUtf8, hvalue, hkey, bind_eq,
      ret_bind] at hlast
    obtain ⟨before, choice, rfl, hspared, hperform⟩ := Executes.of_call hlast
    refine ⟨first, ⟨before, client, value, key, outcome, w'⟩, rfl,
      ⟨text, htext, hvalue, hkey⟩, rfl, hcalm, ?_⟩
    exact (hs'.spared hspared).perform hperform rfl nofun
  · obtain ⟨_, _, heq, -⟩ := of_readProducer hfirst hs hstarted
    cases heq

/-- The write that marks a row. -/
def mark (id : UUID) (publishedAt : Time) : Write :=
  .setPhoto id (PhotoRepository.publishedValues publishedAt)

theorem Session.of_mark {row : Photo} (hrow : row ∈ rows) {publishedAt : Time}
    {outcome : Except PyExc Nat}
    (h : Executes (among t) (wait (.execute (.updatePhoto row.photoId none
      (PhotoRepository.publishedValues publishedAt)))) w moments outcome w')
    (hs : Session t ws traceId rows w) :
    ∃ before, moments = [⟨before, .execute (.updatePhoto row.photoId none
        (PhotoRepository.publishedValues publishedAt)), outcome, w'⟩] ∧
      ∃ ws', Session t ws' traceId rows w' ∧
        ((∃ n, outcome = .ok n) → ws' = ws ++ [mark row.photoId publishedAt]) := by
  obtain ⟨before, choice, rfl, hspared, hperform⟩ := Executes.of_call h
  have hbefore := hs.spared hspared
  have htrace := (congrFun ((Keeps.perform hperform).traceId nofun) t).trans
    hbefore.traceId
  have hrows : ∀ row ∈ rows, w'.Knows row := fun row hrow =>
    (hbefore.rows row hrow).keep (Transacts.perform hperform).keep
  refine ⟨before, rfl, w'.db.writes t, ⟨rfl, htrace, hrows⟩, ?_⟩
  rintro ⟨n, rfl⟩
  rcases World.perform_cases hperform with ⟨_, _, -, heq, -⟩ | ⟨_, _, hhalf, -⟩ | hanswer
  · cases heq
  · cases hhalf
  · have hexecute : before.execute t (.updatePhoto row.photoId none
        (PhotoRepository.publishedValues publishedAt)) = some (.ok n, w') := by
      cases choice <;> first | exact hanswer | cases hanswer
    obtain ⟨-, ⟨_, _, heq, -⟩ | ⟨-, hresolve, -⟩ | ⟨write, -, hresolve, hadded, -⟩⟩ :=
      execute_cases hexecute
    · cases heq
    · obtain ⟨p, hp, -⟩ := hbefore.rows row hrow
      have hthere : ((before.view t).photo row.photoId).isSome :=
        Tables.isSome_photo (by rw [hp]; rfl)
      rw [resolve_matches hresolve] at hthere
      cases hthere
    · rw [hadded, resolve_update hresolve, hbefore.writes]
      rfl

/-- An exception leaves a program if and only if one of its operations raised it. -/
def Tells {α : Type} (moments : Moments) (outcome : Except PyExc α) : Prop :=
  ∀ exc, outcome = .error exc ↔ ∃ moment ∈ moments, moment.answer = .error exc

theorem Tells.append {α : Type} {first last : Moments} {outcome : Except PyExc α}
    (hfirst : ∀ moment ∈ first, Calm moment) (h : Tells last outcome) :
    Tells (first ++ last) outcome := by
  intro exc
  rw [h exc]
  constructor
  · rintro ⟨moment, hmem, hraises⟩
    exact ⟨moment, List.mem_append_right _ hmem, hraises⟩
  · rintro ⟨moment, hmem, hraises⟩
    rcases List.mem_append.mp hmem with hmem | hmem
    · obtain ⟨value, hvalue⟩ := (hfirst moment hmem).returns
      cases hvalue.symm.trans hraises
    · exact ⟨moment, hmem, hraises⟩

theorem tells_one (moment : Moment Op Op.Ans PyExc World) :
    Tells [moment] moment.answer := by
  intro exc
  simp

theorem of_markPublished {row : Photo} (hrow : row ∈ rows) {outcome : Except PyExc Unit}
    (h : Executes (among t) (PhotoRepository.markPublished row.photoId) w moments
      outcome w') (hs : Session t ws traceId rows w) :
    (∀ moment ∈ moments, moment.op.isInner) ∧ Tells moments outcome ∧
      ∃ ws', Session t ws' traceId rows w' ∧
        (outcome = .ok () →
          ∃ publishedAt, ws' = ws ++ [mark row.photoId publishedAt]) := by
  unfold PhotoRepository.markPublished at h
  rcases Executes.of_bind h with ⟨now, first, middle, last, hfirst, hlast, rfl⟩ |
    ⟨exc, rfl, hfirst⟩
  · obtain ⟨before, _, rfl, heq, -, hs', hcalm⟩ := hs.of_prompt rfl hfirst
    cases heq
    have hclock : ∀ moment ∈ [Moment.mk before .utcnow (.ok now) middle], Calm moment := by
      simpa using hcalm
    rcases Executes.of_bind hlast with ⟨n, first, after, last, hexecute, hret, rfl⟩ |
      ⟨exc, rfl, hexecute⟩
    · obtain ⟨before', rfl, ws', hs'', hmarks⟩ := hs'.of_mark hrow hexecute
      obtain ⟨rfl, rfl, rfl⟩ := Executes.of_ret hret
      refine ⟨?_, (Tells.append hclock fun exc => ?_), ws', hs'',
        fun _ => ⟨now, hmarks ⟨n, rfl⟩⟩⟩
      · simpa using ⟨hcalm.inner, rfl⟩
      · simp
    · obtain ⟨before', rfl, ws', hs'', -⟩ := hs'.of_mark hrow hexecute
      refine ⟨?_, (Tells.append hclock fun exc' => ?_), ws', hs'', nofun⟩
      · simpa using ⟨hcalm.inner, rfl⟩
      · simp
  · obtain ⟨_, _, _, heq, -⟩ := hs.of_prompt rfl hfirst
    cases heq

theorem of_publishRow {app : Nat} {row : Photo} (hrow : row ∈ rows) {text : Str}
    (htext : Labels row text) {outcome : Except PyExc Unit}
    (h : Executes (among t) (Outbox.publishRow app row) w moments outcome w')
    (hs : Session t ws (.str text) rows w)
    (hstarted : ∀ moment ∈ moments, moment.before.Started app) :
    ∃ (first : Moments) (sending : Sending) (last : Moments),
      moments = first ++ sending.moment :: last ∧ sending.Announces row ∧
      (∀ moment ∈ first ++ last, moment.op.isInner) ∧ Tells moments outcome ∧
      ∃ ws', Session t ws' (.str text) rows w' ∧
        (∀ exc, sending.answer = .error exc → ws' = ws) ∧
        (outcome = .ok () →
          ∃ publishedAt, ws' = ws ++ [mark row.photoId publishedAt]) := by
  unfold Outbox.publishRow at h
  rcases Executes.of_bind h with ⟨_, reads, middle, rest, hreads, hrest, rfl⟩ |
    ⟨exc, rfl, hreads⟩
  · obtain ⟨heq, hcalm, hs'⟩ := of_traceIdVar hreads hs
    cases heq
    have hstarted' : ∀ moment ∈ rest, moment.before.Started app := fun moment hmem =>
      hstarted moment (List.mem_append_right _ hmem)
    rcases Executes.of_bind hrest with ⟨_, publish, after, last, hpublish, hmark, rfl⟩ |
      ⟨exc, rfl, hpublish⟩
    · obtain ⟨first, sending, rfl, hannounces, hanswer, hfirst, hs''⟩ :=
        of_publishAnalysisRequested htext hpublish hs' fun moment hmem =>
          hstarted' moment (List.mem_append_left _ hmem)
      obtain ⟨hinner, htells, ws', hafter, hmarks⟩ := of_markPublished hrow hmark hs''
      have hcalm' : ∀ moment ∈ reads ++ first, Calm moment := fun moment hmem =>
        (List.mem_append.mp hmem).elim (hcalm moment) (hfirst moment)
      refine ⟨reads ++ first, sending, last, by simp, hannounces, fun moment hmem => ?_,
        ?_, ws', hafter, fun exc hexc => ?_, hmarks⟩
      · exact (List.mem_append.mp hmem).elim (fun hmem => (hcalm' moment hmem).inner)
          (hinner moment)
      · have hsent : Tells (sending.moment :: last) outcome := by
          intro exc
          have hnone : sending.moment.answer ≠ .error exc := fun hexc => by
            cases hanswer.symm.trans hexc
          simpa [hnone] using htells exc
        simpa using Tells.append hcalm' hsent
      · cases hanswer.symm.trans hexc
    · obtain ⟨first, sending, rfl, hannounces, hanswer, hfirst, hs''⟩ :=
        of_publishAnalysisRequested htext hpublish hs' hstarted'
      have hcalm' : ∀ moment ∈ reads ++ first, Calm moment := fun moment hmem =>
        (List.mem_append.mp hmem).elim (hcalm moment) (hfirst moment)
      refine ⟨reads ++ first, sending, [], by simp, hannounces, fun moment hmem => ?_, ?_,
        ws, hs'', fun _ _ => rfl, nofun⟩
      · exact (hcalm' moment (by simpa using hmem)).inner
      · have hsent : Tells [sending.moment] (.error exc : Except PyExc Unit) := by
          rw [← hanswer]
          exact tells_one sending.moment
        simpa using Tells.append hcalm' hsent
  · obtain ⟨heq, -⟩ := of_traceIdVar hreads hs
    cases heq

end

/-! ## Trying a row -/

/-- An exception that does not leave a row to the next poll leaves the row's program. -/
def Went (moments : Moments) (outcome : Except PyExc Unit) : Prop :=
  (outcome = .ok () ∧
    ∀ moment ∈ moments, ∀ exc, moment.answer = .error exc → exc.isPublishFailure) ∨
  ∃ exc, outcome = .error exc ∧ ¬exc.isPublishFailure ∧
    ∃ moment ∈ moments, moment.answer = .error exc

/-- Nothing raises but sends, and they only fail to publish. -/
def Smooth (moments : Moments) : Prop :=
  ∀ moment ∈ moments, ∀ exc, moment.answer = .error exc →
    moment.op.concern = .send ∧ exc.isPublishFailure

/-- What `ws'` has more than `ws` are marks of these photos. -/
def Marks (ws ws' : List Write) (ids : List UUID) : Prop :=
  ∃ marks : List (UUID × Time), ws' = ws ++ marks.map (fun entry => mark entry.1 entry.2) ∧
    marks.map Prod.fst = ids

theorem Marks.refl (ws : List Write) : Marks ws ws [] := ⟨[], by simp, rfl⟩

theorem Marks.trans {ws ws' ws'' : List Write} {ids ids' : List UUID}
    (h : Marks ws ws' ids) (h' : Marks ws' ws'' ids') : Marks ws ws'' (ids ++ ids') := by
  obtain ⟨marks, rfl, rfl⟩ := h
  obtain ⟨marks', rfl, rfl⟩ := h'
  exact ⟨marks ++ marks', by simp, by simp⟩

/-- What was done about a row, from its trace id's being set to its being reset. -/
structure Attempt where
  row : Photo
  first : Moments
  sending : Sending
  last : Moments
  reset : Moment Op Op.Ans PyExc World

namespace Attempt

def moments (attempt : Attempt) : Moments :=
  attempt.first ++ attempt.sending.moment :: (attempt.last ++ [attempt.reset])

def sent (attempt : Attempt) : Bool := attempt.sending.answer.isOk

def rest (attempt : Attempt) : Moments :=
  attempt.first ++ (attempt.last ++ [attempt.reset])

/-- The row's own event is sent, nothing else, and the trace id is taken back. -/
structure Sound (attempt : Attempt) (t : Tid) (traceId : Json) : Prop where
  announces : attempt.sending.Announces attempt.row
  once : ∀ moment ∈ attempt.rest, moment.op.isInner
  restores : attempt.reset.after.traceId t = traceId

theorem mem_moments {attempt : Attempt} {moment : Moment Op Op.Ans PyExc World} :
    moment ∈ attempt.moments ↔
      moment = attempt.sending.moment ∨ moment ∈ attempt.rest := by
  simp only [moments, rest, List.mem_append, List.mem_cons]
  tauto

end Attempt

/-- The photos whose event was acknowledged. -/
def sentIds (attempts : List Attempt) : List UUID :=
  (attempts.filter Attempt.sent).map fun attempt => attempt.row.photoId

/-- The body of the loop over the rows. -/
def tryRow (app : Nat) (row : Photo) : Py Unit := do
  let token ← wait (.setTraceId (.str (← Outbox.rowTraceId row)))
  ((Outbox.publishRow app row).tryExcept fun exc =>
      if exc.isPublishFailure then wait (.count .kafkaPublishErrorsTotal 1)
      else .raise exc).tryFinally do
    let _ ← wait (.setTraceId token)

theorem publishRows_cons (app : Nat) (row : Photo) (rows : List Photo) :
    Outbox.publishRows app (row :: rows) =
      (tryRow app row).bind fun _ => Outbox.publishRows app rows := by
  simp only [Outbox.publishRows, tryRow, bind_eq, bind_assoc]

section

variable {t : Tid} {ws : List Write} {traceId : Json} {rows : List Photo}
variable {w w' : World} {moments : Moments}

theorem of_handledRow {app : Nat} {row : Photo} (hrow : row ∈ rows) {text : Str}
    (htext : Labels row text) {outcome : Except PyExc Unit}
    (h : Executes (among t) ((Outbox.publishRow app row).tryExcept fun exc =>
      if exc.isPublishFailure then wait (.count .kafkaPublishErrorsTotal 1)
      else .raise exc) w moments outcome w')
    (hs : Session t ws (.str text) rows w)
    (hstarted : ∀ moment ∈ moments, moment.before.Started app) :
    ∃ (first : Moments) (sending : Sending) (last : Moments),
      moments = first ++ sending.moment :: last ∧ sending.Announces row ∧
      (∀ moment ∈ first ++ last, moment.op.isInner) ∧ Went moments outcome ∧
      ∃ ws', Session t ws' (.str text) rows w' ∧ (Smooth moments →
        Marks ws ws' (if sending.answer.isOk then [row.photoId] else [])) := by
  rcases Executes.of_tryExcept h with ⟨value, rfl, hpublish⟩ |
    ⟨exc, publish, middle, rest, hpublish, hrest, rfl⟩
  · obtain ⟨first, sending, last, rfl, hannounces, hinner, htells, ws', hs', hkept,
      hmarks⟩ := of_publishRow hrow htext hpublish hs hstarted
    refine ⟨first, sending, last, rfl, hannounces, hinner, .inl ⟨rfl, ?_⟩, ws', hs',
      fun _ => ?_⟩
    · intro moment hmem exc hexc
      cases (htells exc).mpr ⟨moment, hmem, hexc⟩
    · obtain ⟨publishedAt, rfl⟩ := hmarks rfl
      cases hanswer : sending.answer with
      | ok value => exact ⟨[(row.photoId, publishedAt)], rfl, rfl⟩
      | error exc =>
          cases (htells exc).mpr ⟨sending.moment, by simp, hanswer⟩
  · obtain ⟨first, sending, last, rfl, hannounces, hinner, htells, ws', hs', hkept,
      hmarks⟩ := of_publishRow hrow htext hpublish hs fun moment hmem =>
        hstarted moment (List.mem_append_left _ hmem)
    obtain ⟨raiser, hraiser, hraises⟩ := (htells exc).mp rfl
    have honly : ∀ moment ∈ first ++ sending.moment :: last, ∀ exc',
        moment.answer = .error exc' → exc' = exc := fun moment hmem exc' hexc' =>
      (Except.error.inj ((htells exc').mpr ⟨moment, hmem, hexc'⟩)).symm
    -- the others of the row's operations have returned
    have hsmooth : Smooth ((first ++ sending.moment :: last) ++ rest) →
        Marks ws ws' (if sending.answer.isOk then [row.photoId] else []) := by
      intro hsmooth
      have hsend := (hsmooth raiser (List.mem_append_left _ hraiser) exc hraises).1
      have hanswer : sending.answer = .error exc := by
        rcases List.mem_append.mp hraiser with hmem | hmem
        · exact absurd hsend
            (Op.concern_of_isInner (hinner raiser (List.mem_append_left _ hmem)))
        · rcases List.mem_cons.mp hmem with rfl | hmem
          · exact hraises
          · exact absurd hsend
              (Op.concern_of_isInner (hinner raiser (List.mem_append_right _ hmem)))
      rw [hkept exc hanswer, hanswer]
      exact .refl ws
    split at hrest
    next hfailure =>
      obtain ⟨before, value, rfl, rfl, -, hs'', hcalm⟩ := hs'.of_prompt rfl hrest
      refine ⟨first, sending,
        last ++ [⟨before, .count .kafkaPublishErrorsTotal 1, .ok value, w'⟩],
        by simp, hannounces, ?_, .inl ⟨rfl, ?_⟩, ws', hs'', hsmooth⟩
      · rw [← List.append_assoc]
        intro moment hmem
        rcases List.mem_append.mp hmem with hmem | hmem
        · exact hinner moment hmem
        · obtain rfl := List.mem_singleton.mp hmem
          exact hcalm.inner
      · intro moment hmem exc' hexc'
        rcases List.mem_append.mp hmem with hmem | hmem
        · rwa [honly moment hmem exc' hexc']
        · obtain rfl := List.mem_singleton.mp hmem
          cases hexc'
    next hother =>
      obtain ⟨rfl, rfl, rfl⟩ := Executes.of_raise hrest
      refine ⟨first, sending, last, by simp, hannounces, hinner,
        .inr ⟨exc, rfl, hother, ?_⟩, ws', hs', hsmooth⟩
      exact ⟨raiser, by simpa using hraiser, hraises⟩

/-- Nothing that stands around these moments raises. -/
theorem Went.around {inner moments : Moments} {outcome : Except PyExc Unit}
    (h : Went inner outcome) (hwithin : ∀ moment ∈ inner, moment ∈ moments)
    (hraises : ∀ moment ∈ moments, ∀ exc, moment.answer = .error exc → moment ∈ inner) :
    Went moments outcome := by
  rcases h with ⟨rfl, hfailures⟩ | ⟨exc, rfl, hother, moment, hmem, hexc⟩
  · exact .inl ⟨rfl, fun moment hmem exc hexc =>
      hfailures moment (hraises moment hmem exc hexc) exc hexc⟩
  · exact .inr ⟨exc, rfl, hother, moment, hwithin moment hmem, hexc⟩

theorem of_tryRow {app : Nat} {row : Photo} (hrow : row ∈ rows)
    {outcome : Except PyExc Unit}
    (h : Executes (among t) (tryRow app row) w moments outcome w')
    (hs : Session t ws traceId rows w)
    (hstarted : ∀ moment ∈ moments, moment.before.Started app) :
    ∃ attempt : Attempt, attempt.row = row ∧ attempt.moments = moments ∧
      attempt.Sound t traceId ∧ Went moments outcome ∧
      ∃ ws', Session t ws' traceId rows w' ∧
        (Smooth moments → Marks ws ws' (sentIds [attempt])) := by
  unfold tryRow at h
  rcases Executes.of_bind h with ⟨text, choosing, w₁, rest, hchoosing, hrest, rfl⟩ |
    ⟨exc, rfl, hchoosing⟩
  · obtain ⟨_, heq, htext, hcalm, hs₁⟩ := of_rowTraceId hchoosing hs
    cases heq
    rcases Executes.of_bind hrest with ⟨token, setting, w₂, body, hsetting, hbody, rfl⟩ |
      ⟨exc, rfl, hsetting⟩
    · obtain ⟨before, rfl, heq, hs₂⟩ := hs₁.of_setTraceId hsetting
      cases heq
      obtain ⟨inner, work, w₃, closing, ended, hwork, hclosing, rfl, hended⟩ :=
        Executes.of_tryFinally hbody
      have hstarted' : ∀ moment ∈ work, moment.before.Started app := fun moment hmem =>
        hstarted moment (by simp [hmem])
      obtain ⟨first, sending, last, rfl, hannounces, hinner, hwent, ws', hs₃, hmarks⟩ :=
        of_handledRow hrow htext hwork hs₂ hstarted'
      obtain ⟨before', rfl, rfl, hs₄⟩ := hs₃.of_reset hclosing
      obtain rfl : outcome = inner := hended
      have hwithin : ∀ moment ∈ first ++ sending.moment :: last,
          moment ∈ choosing ++ ([⟨before, .setTraceId (.str text), .ok traceId, w₂⟩] ++
            (first ++ sending.moment :: last ++
              [⟨before', .setTraceId traceId, .ok (.str text), w'⟩])) := fun _ hmem =>
        List.mem_append_right _ (List.mem_append_right _ (List.mem_append_left _ hmem))
      refine ⟨⟨row,
        choosing ++ ⟨before, .setTraceId (.str text), .ok traceId, w₂⟩ :: first,
        sending, last, ⟨before', .setTraceId traceId, .ok (.str text), w'⟩⟩, rfl,
        by simp [Attempt.moments], ⟨hannounces, ?_, hs₄.traceId⟩, ?_, ws', hs₄, ?_⟩
      · intro moment hmem
        simp only [Attempt.rest, List.mem_append, List.mem_cons, List.not_mem_nil,
          or_false] at hmem
        rcases hmem with (hmem | rfl | hmem) | hmem | rfl
        · exact (hcalm moment hmem).inner
        · rfl
        · exact hinner moment (List.mem_append_left _ hmem)
        · exact hinner moment (List.mem_append_right _ hmem)
        · rfl
      · -- the trace id is set before the body and reset after it, neither of which raises
        refine hwent.around hwithin fun moment hmem exc hexc => ?_
        simp only [List.mem_append, List.mem_singleton] at hmem
        rcases hmem with hmem | rfl | hmem | rfl
        · obtain ⟨value, hvalue⟩ := (hcalm moment hmem).returns
          cases hvalue.symm.trans hexc
        · cases hexc
        · exact List.mem_append.mpr hmem
        · cases hexc
      · intro hsmooth
        have hmarked := hmarks fun moment hmem => hsmooth moment (hwithin moment hmem)
        cases hanswer : sending.answer.isOk <;>
          simpa [sentIds, Attempt.sent, hanswer] using hmarked
    · obtain ⟨_, _, heq, -⟩ := hs₁.of_setTraceId hsetting
      cases heq
  · obtain ⟨_, heq, -⟩ := of_rowTraceId hchoosing hs
    cases heq

theorem Went.append {first last : Moments} {outcome : Except PyExc Unit}
    (hfirst : Went first (.ok ())) (h : Went last outcome) :
    Went (first ++ last) outcome := by
  obtain ⟨-, hfailures⟩ : (.ok () : Except PyExc Unit) = .ok () ∧ ∀ moment ∈ first,
      ∀ exc, moment.answer = .error exc → exc.isPublishFailure :=
    hfirst.resolve_right (by rintro ⟨exc, heq, -⟩; cases heq)
  rcases h with ⟨rfl, hlast⟩ | ⟨exc, rfl, hother, moment, hmem, hraises⟩
  · exact .inl ⟨rfl, fun moment hmem => (List.mem_append.mp hmem).elim
      (hfailures moment) (hlast moment)⟩
  · exact .inr ⟨exc, rfl, hother, moment, List.mem_append_right _ hmem, hraises⟩

/-- The rows are tried one after the other until an exception leaves one of them. -/
theorem of_publishRows {app : Nat} {todo : List Photo} (htodo : ∀ row ∈ todo, row ∈ rows)
    {outcome : Except PyExc Unit}
    (h : Executes (among t) (Outbox.publishRows app todo) w moments outcome w')
    (hs : Session t ws traceId rows w)
    (hstarted : ∀ moment ∈ moments, moment.before.Started app) :
    ∃ attempts : List Attempt, moments = attempts.flatMap Attempt.moments ∧
      attempts.map Attempt.row <+: todo ∧
      (∀ attempt ∈ attempts, attempt.Sound t traceId) ∧ Went moments outcome ∧
      (outcome = .ok () → attempts.map Attempt.row = todo) ∧
      ∃ ws', Session t ws' traceId rows w' ∧
        (Smooth moments → Marks ws ws' (sentIds attempts)) := by
  induction todo generalizing w ws moments with
  | nil =>
      obtain ⟨rfl, rfl, rfl⟩ := Executes.of_ret h
      exact ⟨[], rfl, List.nil_prefix, List.forall_mem_nil _,
        .inl ⟨rfl, List.forall_mem_nil _⟩, fun _ => rfl, ws, hs, fun _ => .refl ws⟩
  | cons row todo ih =>
      rw [publishRows_cons] at h
      have hrow := htodo row List.mem_cons_self
      rcases Executes.of_bind h with ⟨_, first, middle, last, hfirst, hlast, rfl⟩ |
        ⟨exc, rfl, hfirst⟩
      · obtain ⟨attempt, rfl, rfl, hsound, hwent, ws₁, hs₁, hmarks⟩ :=
          of_tryRow hrow hfirst hs fun moment hmem =>
            hstarted moment (List.mem_append_left _ hmem)
        obtain ⟨attempts, rfl, hinitial, hsounds, hwents, hall, ws₂, hs₂, hmarks'⟩ :=
          ih (fun row' hrow' => htodo row' (.tail _ hrow')) hlast hs₁ fun moment hmem =>
            hstarted moment (List.mem_append_right _ hmem)
        refine ⟨attempt :: attempts, rfl, ?_, ?_, hwent.append hwents, ?_, ws₂, hs₂, ?_⟩
        · exact (List.prefix_cons_inj _).mpr hinitial
        · exact List.forall_mem_cons.mpr ⟨hsound, hsounds⟩
        · exact fun hok => congrArg _ (hall hok)
        · intro hsmooth
          have hboth := (hmarks fun moment hmem => hsmooth moment
            (List.mem_append_left _ hmem)).trans (hmarks' fun moment hmem =>
              hsmooth moment (List.mem_append_right _ hmem))
          simpa [sentIds, ← List.map_append, ← List.filter_append] using hboth
      · obtain ⟨attempt, rfl, rfl, hsound, hwent, ws₁, hs₁, hmarks⟩ :=
          of_tryRow hrow hfirst hs hstarted
        exact ⟨[attempt], by simp, by simp, by simpa using hsound, hwent, nofun, ws₁, hs₁,
          hmarks⟩

end

end PhotoAnalysis
