import PhotoAnalysis.Guarantees.Photos
import PhotoAnalysis.Refinement.Turns

/-!
# One iteration of the outbox publisher

Which rows an iteration selects, what it does about each of them and what it
commits, whatever the sends and the database answer and whatever the other tasks
do in between.
-/

namespace PhotoAnalysis

open Foundation Program

/-! ## The selection -/

/-- Up to `limit` rows that are `not_sent`, none of the others created earlier. -/
structure Earliest (limit : Nat) (T : Tables) (rows : List Photo) : Prop where
  unsent : ∀ row ∈ rows, row ∈ T.photos.rows ∧ row.publishStatus = .notSent
  nodup : (rows.map Photo.photoId).Nodup
  length : rows.length =
    min limit (T.photos.rows.countP fun row => row.publishStatus = .notSent)
  sorted : rows.Pairwise fun p q => p.createdAt ≤ q.createdAt
  earliest : ∀ p ∈ T.photos.rows, p.publishStatus = .notSent → p ∉ rows →
    ∀ q ∈ rows, q.createdAt ≤ p.createdAt

theorem earliest_of_answer {limit : Nat} {T : Tables} {order : List UUID}
    {rows : List Photo} (h : Query.answer T order (.unpublished limit) = some rows) :
    Earliest limit T rows := by
  obtain ⟨listed, hlisted, rfl⟩ := Option.map_eq_some_iff.mp h
  obtain ⟨hperm, hsorted⟩ := perm_of_inOrder hlisted
  have hmem : ∀ row, row ∈ listed ↔
      row ∈ T.photos.rows ∧ row.publishStatus = .notSent := by
    intro row
    simpa using hperm.mem_iff (a := row)
  have htimes : listed.Pairwise fun p q => p.createdAt ≤ q.createdAt :=
    hsorted.imp fun h => of_decide_eq_true h
  have hnodup : (listed.map Photo.photoId).Nodup :=
    (hperm.map Photo.photoId).nodup_iff.mpr
      (T.photos.nodup.sublist (List.filter_sublist.map Photo.photoId))
  refine ⟨fun row hrow => (hmem row).mp (List.mem_of_mem_take hrow),
    hnodup.sublist ((List.take_sublist _ _).map _), ?_,
    htimes.sublist (List.take_sublist _ _), fun p hp hunsent hnot q hq => ?_⟩
  · rw [List.length_take, hperm.length_eq, List.countP_eq_length_filter]
  · have hsplit := List.take_append_drop limit listed
    have hdrop : p ∈ listed.drop limit := by
      have hlisted := (hmem p).mpr ⟨hp, hunsent⟩
      rw [← hsplit] at hlisted
      exact (List.mem_append.mp hlisted).resolve_left hnot
    rw [← hsplit] at htimes
    exact (List.pairwise_append.mp htimes).2.2 q hq p hdrop

/-- A row that could be selected comes before every one that was created later. -/
theorem Earliest.before {limit : Nat} {T : Tables} {rows : List Photo}
    (h : Earliest limit T rows) {p q : Photo} (hp : p ∈ T.photos.rows)
    (hunsent : p.publishStatus = .notSent) (hq : q ∈ rows)
    (hlater : p.createdAt < q.createdAt) : [p, q].Sublist rows := by
  have hrow : p ∈ rows := by
    by_contra hnot
    exact absurd (h.earliest p hp hunsent hnot q hq) (Nat.not_le.mpr hlater)
  obtain ⟨front, back, rfl⟩ := List.append_of_mem hrow
  have hsorted := List.pairwise_append.mp h.sorted
  rcases List.mem_append.mp hq with hq | hq
  · exact absurd (hsorted.2.2 q hq p List.mem_cons_self) (Nat.not_le.mpr hlater)
  · have hback : q ∈ back := (List.mem_cons.mp hq).resolve_left (by
      rintro rfl
      exact Nat.lt_irrefl _ hlater)
    exact ((List.singleton_sublist.mpr hback).cons_cons p).trans
      (List.sublist_append_right ..)

/-! ## An iteration -/

/-- What one turn of the loop did, taken apart. -/
structure Iteration where
  opening : Moments
  before : World
  answer : Except PyExc (List Photo)
  after : World
  attempts : List Attempt
  closing : Moments

namespace Iteration

/-- The rows selected. -/
def rows (it : Iteration) : List Photo :=
  match it.answer with
  | .ok rows => rows
  | .error _ => []

def selection (it : Iteration) (limit : Nat) : Moment Op Op.Ans PyExc World :=
  ⟨it.before, .select (.unpublished limit), it.answer, it.after⟩

def moments (it : Iteration) (limit : Nat) : Moments :=
  it.opening ++ it.selection limit ::
    (it.attempts.flatMap Attempt.moments ++ it.closing)

end Iteration

/-- The tables but for the publish columns of these photos. -/
structure Marked (ids : List UUID) (T T' : Tables) : Prop where
  sent : ∀ id ∈ ids, ∃ p publishedAt, T.photo id = some p ∧
    T'.photo id =
      some { p with publishStatus := .sent, publishedAt := some publishedAt }
  others : ∀ id, id ∉ ids → T'.photo id = T.photo id
  analyses : T'.analyses = T.analyses
  batches : T'.batches = T.batches

theorem marked_foldl {marks : List (UUID × Time)} (hnodup : (marks.map Prod.fst).Nodup)
    {T : Tables} (hthere : ∀ id ∈ marks.map Prod.fst, (T.photo id).isSome) :
    Marked (marks.map Prod.fst) T
      ((marks.map fun entry => mark entry.1 entry.2).foldl Write.apply T) := by
  induction marks generalizing T with
  | nil => exact ⟨List.forall_mem_nil _, fun _ _ => rfl, rfl, rfl⟩
  | cons entry marks ih =>
      obtain ⟨id, publishedAt⟩ := entry
      obtain ⟨hnew, hnodup⟩ := List.nodup_cons.mp hnodup
      have hphoto : ∀ other, (Write.apply T (mark id publishedAt)).photo other =
          if id = other then (T.photo other).map (Photo.set
            (PhotoRepository.publishedValues publishedAt)) else T.photo other :=
        fun other => Tables.photo_setPhoto T other id _
      have hmarked := ih hnodup (T := Write.apply T (mark id publishedAt))
        fun other hother => by
          have hsome := hthere other (List.mem_cons_of_mem id hother)
          rw [hphoto]
          split
          · simpa using hsome
          · exact hsome
      refine ⟨?_, fun other hother => ?_, hmarked.analyses, hmarked.batches⟩
      · intro other hother
        rcases List.mem_cons.mp hother with rfl | hother
        · obtain ⟨p, hp⟩ := Option.isSome_iff_exists.mp (hthere _ List.mem_cons_self)
          refine ⟨p, publishedAt, hp, (hmarked.others _ hnew).trans ?_⟩
          rw [hphoto, if_pos rfl, hp]
          rfl
        · obtain ⟨p, at', hp, hp'⟩ := hmarked.sent other hother
          have hne : id ≠ other := by
            rintro rfl
            exact hnew hother
          rw [hphoto, if_neg hne] at hp
          exact ⟨p, at', hp, hp'⟩
      · simp only [List.map_cons, List.mem_cons, not_or] at hother
        obtain ⟨hne, hother⟩ := hother
        refine (hmarked.others other hother).trans ?_
        rw [hphoto, if_neg (Ne.symm hne)]

/-! ## What a turn is made of -/

namespace Iteration

/-- The rows are selected and tried in their order, each on its own. -/
structure Tries (it : Iteration) (limit : Nat) (t : Tid) (traceId : Json) : Prop where
  selects : ∀ rows, it.answer = .ok rows → Earliest limit it.before.db.committed rows
  inOrder : it.attempts.map Attempt.row <+: it.rows
  sound : ∀ attempt ∈ it.attempts, attempt.Sound t traceId

/-- How the transaction of an iteration comes to its end. -/
inductive Ends (it : Iteration) (t : Tid) : Moments → Except PyExc Unit → Prop where
  | refused {exc : PyExc} (hanswer : it.answer = .error exc) (hnone : it.attempts = []) :
      Ends it t [] (.error exc)
  | broken {exc : PyExc} (hother : ¬exc.isPublishFailure)
      (hraises : ∃ moment ∈ it.attempts.flatMap Attempt.moments,
        moment.answer = .error exc) : Ends it t [] (.error exc)
  | committed {rows : List Photo} {before after : World} {answer : Except PyExc Unit}
      (hanswer : it.answer = .ok rows) (hall : it.attempts.map Attempt.row = rows)
      (hfailures : ∀ moment ∈ it.attempts.flatMap Attempt.moments, ∀ exc,
        moment.answer = .error exc → exc.isPublishFailure)
      (hmarks : Smooth (it.attempts.flatMap Attempt.moments) →
        Marks [] (before.db.writes t) (sentIds it.attempts))
      (hknows : ∀ row ∈ rows, before.Knows row)
      (hdone : answer = .ok () → after.db.committed = before.view t) :
      Ends it t [⟨before, .commit, answer, after⟩] answer

/-- How the moments of a turn are divided up. -/
structure Apart (it : Iteration) (limit : Nat) (t : Tid) (traceId : Json)
    (ending tail : Moments) (inner : Except PyExc Unit) : Prop where
  opening : ∀ moment ∈ it.opening, Calm moment
  closing : it.closing = ending ++ tail
  tail : ∀ moment ∈ tail, moment.op = .close ∨ moment.op = .waitStop
  tries : it.Tries limit t traceId
  ends : it.Ends t ending inner

end Iteration

section

variable {t : Tid} {ws : List Write} {traceId : Json} {rows : List Photo}
variable {w w' : World} {moments : Moments} {limit app : Nat} {settings : Settings}

theorem Session.of_fetch {outcome : Except PyExc (List Photo)}
    (h : Executes (among t) (PhotoRepository.fetchUnpublished limit) w moments outcome w')
    (hs : Session t [] traceId [] w) :
    ∃ before, moments = [⟨before, .select (.unpublished limit), outcome, w'⟩] ∧
      match outcome with
      | .ok rows => Earliest limit before.db.committed rows ∧ Session t [] traceId rows w'
      | .error _ => Session t [] traceId [] w' := by
  obtain ⟨before, choice, rfl, hspared, hperform⟩ := Executes.of_call h
  have hbefore := hs.spared hspared
  have hview : before.view t = before.db.committed := TxStore.view_of_clean hbefore.writes
  have htrace := (congrFun ((Keeps.perform hperform).traceId nofun) t).trans
    hbefore.traceId
  have hwrites : w'.db.writes t = [] := by
    rcases (Transacts.perform hperform).writes with heq | heq | ⟨_, _, heq, -⟩
    · exact heq.trans hbefore.writes
    · exact heq
    · cases heq
  refine ⟨before, rfl, ?_⟩
  cases outcome with
  | error exc => exact ⟨hwrites, htrace, List.forall_mem_nil _⟩
  | ok rows =>
      rcases World.perform_cases hperform with ⟨_, _, -, heq, -⟩ | ⟨_, _, hhalf, -⟩ |
        hanswer
      · cases heq
      · cases hhalf
      · cases choice <;> try cases hanswer
        obtain ⟨found, hfound, heq⟩ := Option.map_eq_some_iff.mp hanswer
        cases heq
        rw [hview] at hfound
        exact ⟨earliest_of_answer hfound, hwrites, htrace, fun row hrow =>
          ⟨row, photo_of_unpublished hfound hrow, rfl⟩⟩

theorem Session.of_commit {outcome : Except PyExc Unit}
    (h : Executes (among t) (wait .commit) w moments outcome w')
    (hs : Session t ws traceId rows w) :
    ∃ before, moments = [⟨before, .commit, outcome, w'⟩] ∧
      Session t ws traceId rows before ∧ (∃ ws', Session t ws' traceId [] w') ∧
      (outcome = .ok () → w'.db.committed = before.view t) := by
  obtain ⟨before, choice, rfl, hspared, hperform⟩ := Executes.of_call h
  have hbefore := hs.spared hspared
  have htrace := (congrFun ((Keeps.perform hperform).traceId nofun) t).trans
    hbefore.traceId
  refine ⟨before, rfl, hbefore, ⟨_, rfl, htrace, List.forall_mem_nil _⟩, ?_⟩
  rintro rfl
  rcases World.perform_cases hperform with ⟨_, _, -, heq, -⟩ | ⟨_, _, -, heq, -⟩ | hanswer
  · cases heq
  · cases heq
  · cases choice <;> cases hanswer
    rfl

theorem Session.of_close {outcome : Except PyExc Unit}
    (h : Executes (among t) (wait .close) w moments outcome w')
    (hs : Session t ws traceId rows w) :
    ∃ before, moments = [⟨before, .close, outcome, w'⟩] ∧ Session t [] traceId [] w' := by
  obtain ⟨before, choice, rfl, hspared, hperform⟩ := Executes.of_call h
  have htrace := (congrFun ((Keeps.perform hperform).traceId nofun) t).trans
    (hs.spared hspared).traceId
  refine ⟨before, rfl, ?_, htrace, List.forall_mem_nil _⟩
  rcases World.perform_cases hperform with ⟨exc, kept, hcan, -, rfl⟩ | ⟨_, _, hhalf, -⟩ |
    hanswer
  · cases kept
    · exact TxStore.writes_rollback ..
    · cases hcan
  · cases hhalf
  · cases choice <;> cases hanswer
    exact TxStore.writes_rollback ..

/-- The body of the session. -/
theorem of_batch {outcome : Except PyExc Unit}
    (h : Executes (among t) ((PhotoRepository.fetchUnpublished limit).bind fun rows =>
      (Outbox.publishRows app rows).bind fun _ => wait .commit) w moments outcome w')
    (hs : Session t [] traceId [] w)
    (hstarted : ∀ moment ∈ moments, moment.before.Started app) :
    ∃ it : Iteration, it.opening = [] ∧ moments = it.moments limit ∧
      it.Tries limit t traceId ∧ it.Ends t it.closing outcome ∧
      ∃ ws', Session t ws' traceId [] w' := by
  rcases Executes.of_bind h with ⟨rows, fetch, w₁, rest, hfetch, hrest, rfl⟩ |
    ⟨exc, rfl, hfetch⟩
  · obtain ⟨before, rfl, hearliest, hs₁⟩ := hs.of_fetch hfetch
    have hstarted' : ∀ moment ∈ rest, moment.before.Started app := fun moment hmem =>
      hstarted moment (List.mem_append_right _ hmem)
    rcases Executes.of_bind hrest with ⟨_, tries, w₂, last, htries, hlast, rfl⟩ |
      ⟨exc, rfl, htries⟩
    · obtain ⟨attempts, rfl, hinitial, hsound, hwent, hall, ws₂, hs₂, hmarks⟩ :=
        of_publishRows (fun row hrow => hrow) htries hs₁ fun moment hmem =>
          hstarted' moment (List.mem_append_left _ hmem)
      obtain ⟨before', rfl, hs₃, hs₄, hdone⟩ := hs₂.of_commit hlast
      refine ⟨⟨[], before, .ok rows, w₁, attempts, [⟨before', .commit, outcome, w'⟩]⟩, rfl,
        rfl, ⟨?_, hinitial, hsound⟩, ?_, hs₄⟩
      · rintro _ ⟨⟩
        exact hearliest
      · refine .committed rfl (hall rfl) ?_ ?_ hs₃.rows hdone
        · rcases hwent with ⟨-, hfailures⟩ | ⟨exc, heq, -⟩
          · exact hfailures
          · cases heq
        · rw [hs₃.writes]
          exact hmarks
    · obtain ⟨attempts, rfl, hinitial, hsound, hwent, -, ws₂, hs₂, -⟩ :=
        of_publishRows (fun row hrow => hrow) htries hs₁ hstarted'
      refine ⟨⟨[], before, .ok rows, w₁, attempts, []⟩, rfl, by simp [Iteration.moments,
        Iteration.selection], ⟨?_, hinitial, hsound⟩, ?_, ws₂, { hs₂ with
          rows := List.forall_mem_nil _ }⟩
      · rintro _ ⟨⟩
        exact hearliest
      · rcases hwent with ⟨heq, -⟩ | ⟨exc', heq, hother, hraises⟩
        · cases heq
        · cases heq
          exact .broken hother hraises
  · obtain ⟨before, rfl, hs₁⟩ := hs.of_fetch hfetch
    exact ⟨⟨[], before, .error exc, w', [], []⟩, rfl, rfl,
      ⟨nofun, List.nil_prefix, List.forall_mem_nil _⟩, .refused rfl rfl, [], hs₁⟩

/-- It is about the rows alone. -/
theorem Iteration.Ends.congr {it it' : Iteration} {ending : Moments}
    {outcome : Except PyExc Unit} (h : it.Ends t ending outcome)
    (hanswer : it'.answer = it.answer) (hattempts : it'.attempts = it.attempts) :
    it'.Ends t ending outcome := by
  cases h with
  | refused hrefused hnone =>
      exact .refused (hanswer.trans hrefused) (hattempts.trans hnone)
  | broken hother hraises => exact .broken hother (hattempts ▸ hraises)
  | committed hrows hall hfailures hmarks hknows hdone =>
      exact .committed (hanswer.trans hrows) (hattempts ▸ hall) (hattempts ▸ hfailures)
        (hattempts ▸ hmarks) hknows hdone

theorem Iteration.Ends.raiser (limit : Nat) {it : Iteration} {ending : Moments}
    {exc : PyExc} (h : it.Ends t ending (.error exc)) : ∃ moment ∈ it.selection limit ::
      (it.attempts.flatMap Attempt.moments ++ ending), moment.answer = .error exc := by
  generalize hfailed : (.error exc : Except PyExc Unit) = outcome at h
  cases h with
  | refused hanswer hnone =>
      cases hfailed
      exact ⟨it.selection limit, List.mem_cons_self, hanswer⟩
  | broken hother hraises =>
      cases hfailed
      obtain ⟨moment, hmem, hraises⟩ := hraises
      exact ⟨moment, .tail _ (List.mem_append_left _ hmem), hraises⟩
  | committed =>
      exact ⟨_, .tail _ (List.mem_append_right _ (List.mem_singleton.mpr rfl)),
        hfailed.symm⟩

theorem of_publishBatch {outcome : Except PyExc Unit}
    (h : Executes (among t) (Outbox.publishBatch settings app) w moments outcome w')
    (hs : Session t [] traceId [] w)
    (hstarted : ∀ moment ∈ moments, moment.before.Started app) :
    ∃ (it : Iteration) (ending : Moments) (inner : Except PyExc Unit)
      (close : Moment Op Op.Ans PyExc World), it.opening = [] ∧
      it.closing = ending ++ [close] ∧ close.op = .close ∧
      moments = it.moments settings.outboxBatchSize ∧
      it.Tries settings.outboxBatchSize t traceId ∧ it.Ends t ending inner ∧
      (∀ exc, outcome = .error exc → ∃ moment ∈ moments, moment.answer = .error exc) ∧
      Session t [] traceId [] w' := by
  obtain ⟨inner, body, middle, closing, closed, hbody, hclosing, rfl, hclosed⟩ :=
    Executes.of_tryFinally h
  obtain ⟨it, hopening, rfl, htries, hends, ws', hs'⟩ :=
    of_batch hbody hs fun moment hmem => hstarted moment (List.mem_append_left _ hmem)
  obtain ⟨before, rfl, hs''⟩ := hs'.of_close hclosing
  refine ⟨{ it with closing := it.closing ++ [⟨before, .close, closed, w'⟩] }, it.closing,
    inner, _, hopening, rfl, rfl, ?_, ⟨htries.selects, htries.inOrder, htries.sound⟩,
    hends.congr rfl rfl, fun exc hfailed => ?_, hs''⟩
  · simp [Iteration.moments, Iteration.selection]
  · cases closed with
    | ok value =>
        obtain rfl : outcome = inner := hclosed
        subst hfailed
        obtain ⟨moment, hmem, hraises⟩ := hends.raiser settings.outboxBatchSize
        refine ⟨moment, ?_, hraises⟩
        rw [Iteration.moments, hopening]
        exact List.mem_append_left _ hmem
    | error exc' =>
        obtain rfl : outcome = .error exc' := hclosed
        cases hfailed
        exact ⟨_, List.mem_append_right _ (List.mem_singleton.mpr rfl), rfl⟩

theorem of_ensureStarted {outcome : Except PyExc Unit}
    (h : Executes (among t) (KafkaEventProducer.ensureStarted app) w moments outcome w')
    (hs : Session t ws traceId rows w)
    (hstarted : ∀ moment ∈ moments, moment.before.Started app) :
    outcome = .ok () ∧ (∀ moment ∈ moments, Calm moment) ∧
      Session t ws traceId rows w' := by
  unfold KafkaEventProducer.ensureStarted at h
  rcases Executes.of_bind h with ⟨self, first, middle, last, hfirst, hlast, rfl⟩ |
    ⟨exc, rfl, hfirst⟩
  · obtain ⟨_, client, heq, hon, -, hcalm, hs'⟩ := of_readProducer hfirst hs
      fun moment hmem => hstarted moment (List.mem_append_left _ hmem)
    cases heq
    rw [hon, if_pos rfl] at hlast
    obtain ⟨rfl, rfl, rfl⟩ := Executes.of_ret hlast
    exact ⟨rfl, by simpa using hcalm, hs'⟩
  · obtain ⟨_, _, heq, -⟩ := of_readProducer hfirst hs hstarted
    cases heq

theorem of_poll {outcome : Except PyExc Unit}
    (h : Executes (among t) (Outbox.poll settings app) w moments outcome w')
    (hs : Session t [] traceId [] w)
    (hstarted : ∀ moment ∈ moments, moment.before.Started app) :
    ∃ (it : Iteration) (ending : Moments) (inner : Except PyExc Unit)
      (close : Moment Op Op.Ans PyExc World), (∀ moment ∈ it.opening, Calm moment) ∧
      it.closing = ending ++ [close] ∧ close.op = .close ∧
      moments = it.moments settings.outboxBatchSize ∧
      it.Tries settings.outboxBatchSize t traceId ∧ it.Ends t ending inner ∧
      (∀ exc, outcome = .error exc →
        ¬exc.isException ∧ ∃ moment ∈ moments, moment.answer = .error exc) ∧
      Session t [] traceId [] w' := by
  unfold Outbox.poll at h
  obtain ⟨started, opening, w₁, rest, hopening, hrest, rfl⟩ := Executes.of_attempt_bind h
  obtain ⟨rfl, hcalm, hs₁⟩ := of_ensureStarted hopening hs fun moment hmem =>
    hstarted moment (List.mem_append_left _ hmem)
  have hstarted' : ∀ moment ∈ rest, moment.before.Started app := fun moment hmem =>
    hstarted moment (List.mem_append_right _ hmem)
  have hopens : ∀ {it : Iteration}, it.opening = [] →
      opening ++ it.moments settings.outboxBatchSize =
        { it with opening := opening }.moments settings.outboxBatchSize := by
    intro it hnone
    simp [Iteration.moments, Iteration.selection, hnone]
  rcases Executes.of_tryExcept hrest with ⟨value, rfl, hbatch⟩ |
    ⟨exc, batch, w₂, last, hbatch, hlast, rfl⟩
  · obtain ⟨it, ending, inner, close, hnone, hclosing, hclose, rfl, htries, hended, -,
      hs₂⟩ := of_publishBatch hbatch hs₁ hstarted'
    exact ⟨{ it with opening := opening }, ending, inner, close, hcalm, hclosing, hclose,
      hopens hnone, ⟨htries.selects, htries.inOrder, htries.sound⟩, hended.congr rfl rfl,
      nofun, hs₂⟩
  · obtain ⟨it, ending, inner, close, hnone, hclosing, hclose, rfl, htries, hended,
      hraiser, hs₂⟩ := of_publishBatch hbatch hs₁ fun moment hmem =>
        hstarted' moment (List.mem_append_left _ hmem)
    have hquiet : last = [] ∧ w' = w₂ ∧ ∀ exc', outcome = .error exc' →
        exc' = exc ∧ ¬exc.isException := by
      split at hlast
      next hexception =>
        obtain ⟨rfl, rfl, rfl⟩ := Executes.of_ret hlast
        exact ⟨rfl, rfl, nofun⟩
      next hexception =>
        obtain ⟨rfl, rfl, rfl⟩ := Executes.of_raise hlast
        exact ⟨rfl, rfl, fun exc' heq => ⟨(Except.error.inj heq).symm, hexception⟩⟩
    obtain ⟨rfl, rfl, hthrough⟩ := hquiet
    refine ⟨{ it with opening := opening }, ending, inner, close, hcalm, hclosing, hclose,
      by rw [List.append_nil, hopens hnone],
      ⟨htries.selects, htries.inOrder, htries.sound⟩, hended.congr rfl rfl, fun exc' heq => ?_, hs₂⟩
    obtain ⟨rfl, hexception⟩ := hthrough exc' heq
    obtain ⟨moment, hmem, hraises⟩ := hraiser exc' rfl
    exact ⟨hexception, moment, by simp [hmem], hraises⟩

theorem of_waitStop {outcome : Except PyExc Unit}
    (h : Executes (among t) ((wait .waitStop).tryExcept fun exc =>
      if exc.isTimeout then pure () else .raise exc) w moments outcome w')
    (hs : Session t ws traceId rows w) :
    (∀ moment ∈ moments, moment.op = .waitStop) ∧ Session t ws traceId rows w' ∧
      ∀ exc, outcome = .error exc →
        ¬exc.isException ∧ ∃ moment ∈ moments, moment.answer = .error exc := by
  have hcall : ∀ {first : Moments} {answer : Except PyExc Unit} {middle : World},
      Executes (among t) (wait .waitStop) w first answer middle →
        (∃ before, first = [⟨before, .waitStop, answer, middle⟩]) ∧
          Session t ws traceId rows middle ∧
          ∀ exc, answer = .error exc → ¬exc.isTimeout → ¬exc.isException := by
    intro first answer middle hfirst
    obtain ⟨before, choice, rfl, hspared, hperform⟩ := Executes.of_call hfirst
    refine ⟨⟨before, rfl⟩,
      (hs.spared hspared).perform hperform rfl (fun h => by cases h), ?_⟩
    rintro exc rfl htimeout
    rcases World.perform_cases hperform with ⟨_, _, hcan, heq, -⟩ | ⟨_, _, hhalf, -⟩ |
      hanswer
    · cases heq
      simp only [Op.canFail, htimeout, Bool.false_or, Bool.and_eq_true,
        decide_eq_true_eq] at hcan
      rw [hcan.2]
      exact Bool.false_ne_true
    · cases hhalf
    · cases choice <;> try cases hanswer
      simp only [World.answer] at hanswer
      split at hanswer <;> cases hanswer
  rcases Executes.of_tryExcept h with ⟨value, rfl, hwait⟩ |
    ⟨exc, first, middle, last, hwait, hlast, rfl⟩
  · obtain ⟨⟨before, rfl⟩, hs', -⟩ := hcall hwait
    exact ⟨by simp, hs', fun exc heq => by cases heq⟩
  · obtain ⟨⟨before, rfl⟩, hs', hcancelled⟩ := hcall hwait
    split at hlast
    next htimeout =>
      obtain ⟨rfl, rfl, rfl⟩ := Executes.of_ret hlast
      exact ⟨by simp, hs', fun exc heq => by cases heq⟩
    next htimeout =>
      obtain ⟨rfl, rfl, rfl⟩ := Executes.of_raise hlast
      refine ⟨by simp, hs', fun exc' heq => ?_⟩
      cases heq
      exact ⟨hcancelled exc rfl htimeout, by simp⟩

end

/-! ## One iteration -/

/--
A turn of the loop in a new session: the stop event is not set when it begins, and
the producer is started all along.
-/
structure Iterates (settings : Settings) (app : Nat) (t : Tid) (w : World)
    (moments : Moments) (outcome : Except PyExc (Option Reply)) (w' : World) : Prop where
  fresh : w.db.writes t = []
  executes : Executes (among t) (Outbox.turn settings app) w moments outcome w'
  runs : outcome ≠ .ok (some .stopped)
  started : ∀ moment ∈ moments, moment.before.Started app

section

variable {t : Tid} {w w' : World} {moments : Moments} {app : Nat} {settings : Settings}
variable {outcome : Except PyExc (Option Reply)}

theorem Iterates.apart (h : Iterates settings app t w moments outcome w') :
    ∃ (it : Iteration) (ending tail : Moments) (inner : Except PyExc Unit),
      it.moments settings.outboxBatchSize = moments ∧
      it.Apart settings.outboxBatchSize t (w.traceId t) ending tail inner ∧
      (outcome = .ok none ∨ ∃ moment ∈ moments, ∃ exc, moment.answer = .error exc ∧
        ¬exc.isException) := by
  have hs : Session t [] (w.traceId t) [] w := ⟨h.fresh, rfl, List.forall_mem_nil _⟩
  have hstarted := h.started
  have hturn := h.executes
  unfold Outbox.turn at hturn
  rcases Executes.of_bind hturn with ⟨stop, first, w₁, rest, hfirst, hrest, rfl⟩ |
    ⟨exc, rfl, hfirst⟩
  · obtain ⟨before, value, rfl, heq, -, hs₁, hcalm⟩ := hs.of_prompt rfl hfirst
    cases heq
    have hstarted' : ∀ moment ∈ rest, moment.before.Started app := fun moment hmem =>
      hstarted moment (List.mem_append_right _ hmem)
    cases stop with
    | true =>
        obtain ⟨rfl, rfl, rfl⟩ := Executes.of_ret hrest
        exact absurd rfl h.runs
    | false =>
        rcases Executes.of_bind hrest with ⟨_, poll, w₂, last, hpoll, hlast, rfl⟩ |
          ⟨exc, rfl, hpoll⟩
        · obtain ⟨it, ending, inner, close, hopening, hclosing, hclose, rfl, htries, hends,
            -, hs₂⟩ := of_poll hpoll hs₁ fun moment hmem =>
              hstarted' moment (List.mem_append_left _ hmem)
          have hwaits : (∀ moment ∈ last, moment.op = .waitStop) ∧ (outcome = .ok none ∨
              ∃ moment ∈ last, ∃ exc, moment.answer = .error exc ∧ ¬exc.isException) := by
            rcases Executes.of_bind hlast with ⟨_, wait, w₃, none, hwait, hnone, rfl⟩ |
              ⟨exc, rfl, hwait⟩
            · obtain ⟨hops, -, -⟩ := of_waitStop hwait hs₂
              obtain ⟨rfl, rfl, rfl⟩ := Executes.of_ret hnone
              exact ⟨by simpa using hops, .inl rfl⟩
            · obtain ⟨hops, -, hraised⟩ := of_waitStop hwait hs₂
              obtain ⟨hexception, moment, hmem, hraises⟩ := hraised exc rfl
              exact ⟨hops, .inr ⟨moment, hmem, exc, hraises, hexception⟩⟩
          obtain ⟨hops, hgoes⟩ := hwaits
          refine ⟨{ it with
              opening := ⟨before, .stopIsSet, .ok false, w₁⟩ :: it.opening
              closing := it.closing ++ last }, ending, close :: last, inner, ?_,
            ⟨?_, ?_, ?_, ⟨htries.selects, htries.inOrder, htries.sound⟩, hends.congr rfl rfl⟩, ?_⟩
          · simp [Iteration.moments, Iteration.selection]
          · exact List.forall_mem_cons.mpr ⟨hcalm, hopening⟩
          · simp [hclosing]
          · exact List.forall_mem_cons.mpr ⟨.inl hclose, fun moment hmem =>
              .inr (hops moment hmem)⟩
          · refine hgoes.imp_right ?_
            rintro ⟨moment, hmem, hraises⟩
            exact ⟨moment, by simp [hmem], hraises⟩
        · obtain ⟨it, ending, inner, close, hopening, hclosing, hclose, rfl, htries, hends,
            hraised, -⟩ := of_poll hpoll hs₁ hstarted'
          refine ⟨{ it with
              opening := ⟨before, .stopIsSet, .ok false, w₁⟩ :: it.opening }, ending,
            [close], inner, ?_, ⟨?_, hclosing, ?_,
            ⟨htries.selects, htries.inOrder, htries.sound⟩, hends.congr rfl rfl⟩, .inr ?_⟩
          · simp [Iteration.moments, Iteration.selection]
          · exact List.forall_mem_cons.mpr ⟨hcalm, hopening⟩
          · simp [hclose]
          · obtain ⟨hexception, moment, hmem, hraises⟩ := hraised exc rfl
            exact ⟨moment, by simp [hmem], exc, hraises, hexception⟩
  · obtain ⟨_, _, _, heq, -⟩ := hs.of_prompt rfl hfirst
    cases heq

end

/-- Nothing in the iteration raises but sends, and they only fail to publish. -/
def Iteration.Fine (it : Iteration) (limit : Nat) : Prop :=
  ∀ moment ∈ it.moments limit, moment.op ≠ .waitStop → ∀ exc,
    moment.answer = .error exc → moment.op.concern = .send ∧ exc.isPublishFailure

/--
An exception that is not left to the row it comes from, before a commit has taken
effect.
-/
def Aborts (moment : Moment Op Op.Ans PyExc World) : Prop :=
  ∃ exc, moment.answer = .error exc ∧ match moment.op with
    | .close | .waitStop => False
    | .commit => moment.after.db.committed = moment.before.db.committed
    | .select _ => True
    | _ => ¬exc.isPublishFailure

/-- What is true of an iteration, whatever is answered to it. -/
structure OutboxAccount (settings : Settings) (app : Nat) (t : Tid) (w w' : World)
    (it : Iteration) (outcome : Except PyExc (Option Reply)) : Prop where
  selects : ∀ rows, it.answer = .ok rows →
    Earliest settings.outboxBatchSize it.before.db.committed rows
  /-- the rows are attempted in their order, each once, and nothing else is sent -/
  inOrder : it.attempts.map Attempt.row <+: it.rows
  announces : ∀ attempt ∈ it.attempts, attempt.sending.Announces attempt.row
  once : ∀ moment ∈ it.opening ++ it.attempts.flatMap Attempt.rest ++ it.closing,
    moment.op.concern ≠ .send
  /-- all of them, unless an exception ends the batch -/
  all : it.attempts.map Attempt.row = it.rows ∨
    ∃ moment ∈ it.attempts.flatMap Attempt.moments, ∃ exc,
      moment.answer = .error exc ∧ ¬exc.isPublishFailure
  /-- the rows that were sent are marked by one commit, the only change there is -/
  marks : it.Fine settings.outboxBatchSize → ∃ before after,
    (⟨before, .commit, .ok (), after⟩ : Moment Op Op.Ans PyExc World) ∈ it.closing ∧
    Marked (sentIds it.attempts) before.db.committed after.db.committed ∧
    ∀ moment ∈ it.moments settings.outboxBatchSize,
      moment = ⟨before, .commit, .ok (), after⟩ ∨
        moment.after.db.committed = moment.before.db.committed
  /-- no row that failed is among them -/
  failed : ∀ attempt ∈ it.attempts, attempt.sent = false →
    attempt.row.photoId ∉ sentIds it.attempts
  /-- they come before what was created later, as long as they are `not_sent` -/
  retries : ∀ {w₁ moments₁ outcome₁ w₁'}, Spared t w' w₁ →
    Iterates settings app t w₁ moments₁ outcome₁ w₁' →
    ∀ before rows after, (⟨before, .select (.unpublished settings.outboxBatchSize),
      .ok rows, after⟩ : Moment Op Op.Ans PyExc World) ∈ moments₁ →
    ∀ attempt ∈ it.attempts, ∀ p, before.db.committed.photo attempt.row.photoId = some p →
      p.publishStatus = .notSent → ∀ q ∈ rows, attempt.row.createdAt < q.createdAt →
        [p, q].Sublist rows
  aborts : ∀ moment ∈ it.moments settings.outboxBatchSize, Aborts moment →
    ∀ moment' ∈ it.moments settings.outboxBatchSize,
      moment'.after.db.committed = moment'.before.db.committed
  goesOn : outcome = .ok none ∨ ∃ moment ∈ it.moments settings.outboxBatchSize, ∃ exc,
    moment.answer = .error exc ∧ ¬exc.isException
  restores : ∀ attempt ∈ it.attempts, attempt.reset.after.traceId t = w.traceId t

section

variable {t : Tid} {w w' : World} {moments : Moments} {app : Nat} {settings : Settings}
variable {outcome : Except PyExc (Option Reply)}
variable {it : Iteration} {limit : Nat} {traceId : Json}

theorem Attempt.Sound.inner {attempt : Attempt} (h : attempt.Sound t traceId)
    {moment : Moment Op Op.Ans PyExc World} (hmem : moment ∈ attempt.moments) :
    moment = attempt.sending.moment ∨ moment.op.isInner :=
  (Attempt.mem_moments.mp hmem).imp_right (h.once moment)

theorem Iteration.Tries.op_cases (h : it.Tries limit t traceId)
    {moment : Moment Op Op.Ans PyExc World}
    (hmem : moment ∈ it.attempts.flatMap Attempt.moments) :
    moment.op.concern = .send ∨ moment.op.isInner := by
  obtain ⟨attempt, hattempt, hmem⟩ := List.mem_flatMap.mp hmem
  rcases (h.sound attempt hattempt).inner hmem with rfl | hinner
  · exact .inl rfl
  · exact .inr hinner

theorem sentIds_nodup {attempts : List Attempt} {rows : List Photo}
    (hinitial : attempts.map Attempt.row <+: rows)
    (hnodup : (rows.map Photo.photoId).Nodup) :
    (attempts.map fun attempt => attempt.row.photoId).Nodup := by
  have hids := hnodup.sublist (hinitial.sublist.map Photo.photoId)
  rwa [List.map_map] at hids

theorem Iteration.Tries.nodup (h : it.Tries limit t traceId) :
    (it.attempts.map fun attempt => attempt.row.photoId).Nodup := by
  cases hanswer : it.answer with
  | ok rows =>
      refine sentIds_nodup h.inOrder ?_
      rw [Iteration.rows, hanswer]
      exact (h.selects rows hanswer).nodup
  | error exc =>
      have hnone := h.inOrder
      rw [Iteration.rows, hanswer] at hnone
      simp [List.map_eq_nil_iff.mp (List.prefix_nil.mp hnone)]

theorem Iteration.Tries.failed (h : it.Tries limit t traceId) {attempt : Attempt}
    (hmem : attempt ∈ it.attempts) (hfailed : attempt.sent = false) :
    attempt.row.photoId ∉ sentIds it.attempts := by
  intro hsent
  obtain ⟨other, hother, hid⟩ := List.mem_map.mp hsent
  obtain ⟨hother, hok⟩ := List.mem_filter.mp hother
  obtain rfl := List.inj_on_of_nodup_map h.nodup hother hmem hid
  rw [hfailed] at hok
  cases hok

namespace Iteration.Apart

variable {ending tail : Moments} {inner : Except PyExc Unit}
variable {moment : Moment Op Op.Ans PyExc World}

theorem cases (h : it.Apart limit t traceId ending tail inner)
    (hmem : moment ∈ it.moments limit) :
    Calm moment ∨ moment = it.selection limit ∨
      moment ∈ it.attempts.flatMap Attempt.moments ∨ moment ∈ ending ∨
      moment.op = .close ∨ moment.op = .waitStop := by
  rw [Iteration.moments, h.closing] at hmem
  simp only [List.mem_append, List.mem_cons] at hmem
  rcases hmem with hmem | heq | hmem | hmem | hmem
  · exact .inl (h.opening moment hmem)
  · exact .inr (.inl heq)
  · exact .inr (.inr (.inl hmem))
  · exact .inr (.inr (.inr (.inl hmem)))
  · exact .inr (.inr (.inr (.inr (h.tail moment hmem))))

/-- Only the commit of an iteration changes what is committed. -/
theorem mem_of_commit (h : it.Apart limit t traceId ending tail inner)
    (hmem : moment ∈ it.moments limit) (hcommit : moment.op = .commit) :
    moment ∈ ending := by
  rcases h.cases hmem with hcalm | rfl | hrow | hending | hop | hop
  · cases hcommit ▸ hcalm.prompt
  · cases hcommit
  · rcases h.tries.op_cases hrow with hsend | hinner
    · cases hcommit ▸ hsend
    · cases hcommit ▸ hinner
  · exact hending
  · cases hcommit.symm.trans hop
  · cases hcommit.symm.trans hop

/-- An iteration has one selection. -/
theorem eq_of_select (h : it.Apart limit t traceId ending tail inner)
    (hmem : moment ∈ it.moments limit) {query : Query}
    (hselect : moment.op = .select query) :
    moment = it.selection limit := by
  rcases h.cases hmem with hcalm | heq | hrow | hending | hop | hop
  · cases hselect ▸ hcalm.prompt
  · exact heq
  · rcases h.tries.op_cases hrow with hsend | hinner
    · cases hselect ▸ hsend
    · cases hselect ▸ hinner
  · cases h.ends with
    | refused | broken => cases hending
    | committed =>
        obtain rfl := List.mem_singleton.mp hending
        cases hselect
  · cases hselect.symm.trans hop
  · cases hselect.symm.trans hop

theorem mem_of_row (hmem : moment ∈ it.attempts.flatMap Attempt.moments) :
    moment ∈ it.moments limit :=
  List.mem_append_right _ (.tail _ (List.mem_append_left _ hmem))

theorem mem_of_ending (h : it.Apart limit t traceId ending tail inner)
    (hmem : moment ∈ ending) : moment ∈ it.moments limit := by
  rw [Iteration.moments, h.closing]
  exact List.mem_append_right _ (.tail _ (List.mem_append_right _
    (List.mem_append_left _ hmem)))

theorem marks (h : it.Apart limit t traceId ending tail inner) (hfine : it.Fine limit) :
    ∃ before after, ending = [⟨before, .commit, .ok (), after⟩] ∧
      Marked (sentIds it.attempts) before.db.committed after.db.committed := by
  have hsmooth : Smooth (it.attempts.flatMap Attempt.moments) := by
    intro moment hmem exc hexc
    refine hfine moment (mem_of_row hmem) (fun hwait => ?_) exc hexc
    rcases h.tries.op_cases hmem with hsend | hinner
    · cases hwait ▸ hsend
    · cases hwait ▸ hinner
  have hcommits : ∀ moment ∈ ending, ∀ exc, moment.op = .commit →
      moment.answer ≠ .error exc := fun moment hmem exc hcommit hraises => by
    have hsend := (hfine moment (h.mem_of_ending hmem) (hcommit ▸ nofun) exc hraises).1
    cases hcommit ▸ hsend
  cases h.ends with
  | @refused exc hanswer hnone =>
      have hselection : it.selection limit ∈ it.moments limit :=
        List.mem_append_right _ List.mem_cons_self
      cases (hfine _ hselection nofun exc hanswer).1
  | @broken exc hother hraises =>
      obtain ⟨moment, hmem, hraises⟩ := hraises
      exact absurd (hsmooth moment hmem exc hraises).2 hother
  | @committed rows before after _ hanswer hall hfailures hmarks hknows hdone =>
      cases inner with
      | error exc => exact absurd rfl (hcommits _ (List.mem_singleton.mpr rfl) exc rfl)
      | ok value =>
          obtain ⟨marks, hwrites, hids⟩ := hmarks hsmooth
          refine ⟨before, after, rfl, ?_⟩
          rw [hdone rfl, World.view, TxStore.view, hwrites, List.nil_append, ← hids]
          refine marked_foldl ?_ fun id hid => ?_
          · rw [hids]
            exact h.tries.nodup.sublist (List.filter_sublist.map _)
          · rw [hids] at hid
            obtain ⟨attempt, hattempt, rfl⟩ := List.mem_map.mp hid
            have hrow : attempt.row ∈ rows :=
              hall ▸ List.mem_map_of_mem (List.mem_of_mem_filter hattempt)
            obtain ⟨p, hp, -⟩ := hknows _ hrow
            rw [hp]
            rfl

theorem aborts (h : it.Apart limit t traceId ending tail inner)
    (hmem : moment ∈ it.moments limit) (haborts : Aborts moment) : ∀ moment' ∈ ending,
      moment'.after.db.committed = moment'.before.db.committed := by
  have hcases := h.cases hmem
  cases h.ends with
  | refused | broken => exact List.forall_mem_nil _
  | @committed rows before after _ hanswer hall hfailures hmarks hknows hdone =>
      rintro moment' hmem'
      obtain rfl := List.mem_singleton.mp hmem'
      obtain ⟨exc, hraises, hwhere⟩ := haborts
      rcases hcases with hcalm | rfl | hrow | hending | hop | hop
      · obtain ⟨value, hvalue⟩ := hcalm.returns
        cases hvalue.symm.trans hraises
      · cases hanswer.symm.trans hraises
      · have hfailure := hfailures moment hrow exc hraises
        rcases moment with ⟨before', op, answer', after'⟩
        rcases h.tries.op_cases hrow with hsend | hinner
        · cases op <;> first
            | exact absurd hfailure hwhere
            | cases hsend
        · cases op <;> first
            | exact absurd hfailure hwhere
            | cases hinner
      · obtain rfl := List.mem_singleton.mp hending
        exact hwhere
      · simp [hop] at hwhere
      · simp [hop] at hwhere

theorem once (h : it.Apart limit t traceId ending tail inner) :
    ∀ moment ∈ it.opening ++ it.attempts.flatMap Attempt.rest ++ it.closing,
      moment.op.concern ≠ .send := by
  intro moment hmem
  rw [h.closing] at hmem
  simp only [List.mem_append] at hmem
  rcases hmem with (hmem | hmem) | hmem | hmem
  · exact Op.concern_of_isInner (h.opening moment hmem).inner
  · obtain ⟨attempt, hattempt, hmem⟩ := List.mem_flatMap.mp hmem
    exact Op.concern_of_isInner ((h.tries.sound attempt hattempt).once moment hmem)
  · cases h.ends with
    | refused | broken => cases hmem
    | committed =>
        obtain rfl := List.mem_singleton.mp hmem
        exact nofun
  · rcases h.tail moment hmem with heq | heq <;> rw [heq] <;> exact nofun

theorem all (h : it.Apart limit t traceId ending tail inner) :
    it.attempts.map Attempt.row = it.rows ∨
      ∃ moment ∈ it.attempts.flatMap Attempt.moments, ∃ exc,
        moment.answer = .error exc ∧ ¬exc.isPublishFailure := by
  cases h.ends with
  | refused hanswer hnone => exact .inl (by simp [Iteration.rows, hanswer, hnone])
  | broken hother hraises =>
      obtain ⟨moment, hmem, hraises⟩ := hraises
      exact .inr ⟨moment, hmem, _, hraises, hother⟩
  | committed hanswer hall => exact .inl (by rw [Iteration.rows, hanswer, hall])

end Iteration.Apart

/-- Photos that are committed stay. -/
theorem Iterates.keep (h : Iterates settings app t w moments outcome w') :
    ∀ moment ∈ moments, w.db.committed.Keep moment.before.db.committed ∧
      moment.before.db.committed.Keep w'.db.committed := by
  have hspans := h.executes.spans (R := fun a b => a.db.committed.Keep b.db.committed)
    (fun w => .refl _) (fun hab hbc => hab.trans hbc)
    (fun {a b} (hspared : Spared t a b) => hspared.photos)
    fun hperform => (Transacts.perform hperform).keep
  intro moment hmem
  obtain ⟨choice, hperform⟩ := h.executes.performed moment hmem
  obtain ⟨hbefore, hafter⟩ := hspans.2 moment hmem
  exact ⟨hbefore, (Transacts.perform hperform).keep.trans hafter⟩

/-- A row that has been attempted and is still `not_sent` is not overtaken. -/
theorem Iterates.retries {ending tail : Moments} {inner : Except PyExc Unit}
    (h : Iterates settings app t w (it.moments settings.outboxBatchSize) outcome w')
    (hapart : it.Apart settings.outboxBatchSize t traceId ending tail inner)
    {w₁ w₁' : World} {moments₁ : Moments} {outcome₁ : Except PyExc (Option Reply)}
    (hspared : Spared t w' w₁)
    (hnext : Iterates settings app t w₁ moments₁ outcome₁ w₁')
    {before after : World} {rows : List Photo}
    (hselection : (⟨before, .select (.unpublished settings.outboxBatchSize), .ok rows,
      after⟩ : Moment Op Op.Ans PyExc World) ∈ moments₁)
    {attempt : Attempt} (hattempt : attempt ∈ it.attempts) {p q : Photo}
    (hp : before.db.committed.photo attempt.row.photoId = some p)
    (hunsent : p.publishStatus = .notSent) (hq : q ∈ rows)
    (hlater : attempt.row.createdAt < q.createdAt) : [p, q].Sublist rows := by
  obtain ⟨next, ending', tail', inner', rfl, hapart', -⟩ := hnext.apart
  have heq := hapart'.eq_of_select hselection rfl
  simp only [Iteration.selection, Moment.mk.injEq, true_and, heq_eq_eq] at heq
  obtain ⟨rfl, hanswer, -⟩ := heq
  have hearliest := hapart'.tries.selects rows hanswer.symm
  have hrow : attempt.row ∈ it.rows :=
    hapart.tries.inOrder.subset (List.mem_map_of_mem hattempt)
  have hfound : it.before.db.committed.photo attempt.row.photoId = some attempt.row := by
    cases hrows : it.answer with
    | error exc => simp [Iteration.rows, hrows] at hrow
    | ok selected =>
        rw [Iteration.rows, hrows] at hrow
        exact Table.find_of_mem ((hapart.tries.selects selected hrows).unsent _ hrow).1
  -- the photo has the creation time of the row that was selected earlier
  have hkept := ((h.keep (it.selection settings.outboxBatchSize)
    (List.mem_append_right _ List.mem_cons_self)).2.trans hspared.photos).trans
      (hnext.keep _ hselection).1
  obtain ⟨p', hp', hidentity⟩ := hkept _ _ hfound
  obtain rfl : p' = p := Option.some.inj (hp'.symm.trans hp)
  have htime : p'.createdAt = attempt.row.createdAt :=
    (Photo.identity_eq hidentity).2.2.2.1
  exact hearliest.before (Table.mem_of_find hp) hunsent hq (htime ▸ hlater)

/--
Whatever is answered to an iteration, it does with the rows it selects what its
account says.
-/
theorem outbox_iteration (h : Iterates settings app t w moments outcome w') :
    ∃ it : Iteration, it.moments settings.outboxBatchSize = moments ∧
      OutboxAccount settings app t w w' it outcome := by
  obtain ⟨it, ending, tail, inner, rfl, hapart, hgoes⟩ := h.apart
  have honly : ∀ moment ∈ it.moments settings.outboxBatchSize, moment ∈ ending ∨
      moment.after.db.committed = moment.before.db.committed := by
    intro moment hmem
    obtain ⟨choice, hperform⟩ := h.executes.performed moment hmem
    by_cases hcommit : moment.op = .commit
    · exact .inl (hapart.mem_of_commit hmem hcommit)
    · exact .inr (committed_of_perform hcommit hperform)
  refine ⟨it, rfl, {
    selects := hapart.tries.selects
    inOrder := hapart.tries.inOrder
    announces := fun attempt hmem => (hapart.tries.sound attempt hmem).announces
    once := hapart.once
    all := hapart.all
    marks := fun hfine => ?_
    failed := fun attempt hmem hfailed => hapart.tries.failed hmem hfailed
    retries := fun hspared hnext before rows after hselection attempt hattempt p hp hunsent
      q hq hlater =>
        h.retries hapart hspared hnext hselection hattempt hp hunsent hq hlater
    aborts := fun moment hmem haborts moment' hmem' =>
      (honly moment' hmem').elim (hapart.aborts hmem haborts moment') id
    goesOn := hgoes
    restores := fun attempt hmem => (hapart.tries.sound attempt hmem).restores }⟩
  obtain ⟨before, after, rfl, hmarked⟩ := hapart.marks hfine
  refine ⟨before, after, ?_, hmarked, fun moment hmem => ?_⟩
  · simp [hapart.closing]
  · exact (honly moment hmem).imp_left List.mem_singleton.mp

end

/-! ## Every turn of a publisher -/

section

variable {t : Tid} {w w' : World} {moments : Moments} {app : Nat} {settings : Settings}

theorem Op.isDatabase_of_isLocal {op : Op} (h : op.isLocal) : op.isDatabase = false := by
  cases op <;> first
    | rfl
    | cases h

theorem fresh_of_local {α : Type} {program : Py α} {outcome : Except PyExc α}
    (huses : program.Uses (Op.isLocal ·))
    (h : Executes (among t) program w moments outcome w') (hfresh : w.db.writes t = []) :
    w'.db.writes t = [] :=
  h.preserve (P := fun w => w.db.writes t = []) huses
    (fun {a b} (hspared : Spared t a b) hw => hspared.writes.trans hw)
    (fun hop hperform hw => by
      rwa [db_of_perform (Op.isDatabase_of_isLocal hop) hperform]) hfresh

theorem fresh_of_publishBatch {outcome : Except PyExc Unit}
    (h : Executes (among t) (Outbox.publishBatch settings app) w moments outcome w') :
    w'.db.writes t = [] := by
  obtain ⟨inner, body, middle, closing, closed, hbody, hclosing, rfl, -⟩ :=
    Executes.of_tryFinally h
  have hs : Session t (middle.db.writes t) (middle.traceId t) [] middle :=
    ⟨rfl, rfl, List.forall_mem_nil _⟩
  obtain ⟨before, -, hs'⟩ := hs.of_close hclosing
  exact hs'.writes

theorem fresh_of_poll {outcome : Except PyExc Unit}
    (h : Executes (among t) (Outbox.poll settings app) w moments outcome w')
    (hfresh : w.db.writes t = []) : w'.db.writes t = [] := by
  unfold Outbox.poll at h
  obtain ⟨started, first, middle, last, hfirst, hlast, rfl⟩ := Executes.of_attempt_bind h
  have hmiddle := fresh_of_local (ensureStarted_uses app) hfirst hfresh
  cases started with
  | error exc =>
      dsimp only at hlast
      split at hlast
      · obtain ⟨-, -, rfl⟩ := Executes.of_ret hlast
        exact hmiddle
      · obtain ⟨-, -, rfl⟩ := Executes.of_raise hlast
        exact hmiddle
  | ok value =>
      rcases Executes.of_tryExcept hlast with ⟨_, rfl, hbatch⟩ |
        ⟨exc, batch, w₁, rest, hbatch, hrest, rfl⟩
      · exact fresh_of_publishBatch hbatch
      · split at hrest
        · obtain ⟨-, -, rfl⟩ := Executes.of_ret hrest
          exact fresh_of_publishBatch hbatch
        · obtain ⟨-, -, rfl⟩ := Executes.of_raise hrest
          exact fresh_of_publishBatch hbatch

/-- A turn leaves no transaction open. -/
theorem fresh_of_turn {outcome : Except PyExc (Option Reply)}
    (h : Executes (among t) (Outbox.turn settings app) w moments outcome w')
    (hfresh : w.db.writes t = []) : w'.db.writes t = [] := by
  unfold Outbox.turn at h
  rcases Executes.of_bind h with ⟨stop, first, w₁, rest, hfirst, hrest, rfl⟩ |
    ⟨exc, rfl, hfirst⟩
  · have hw₁ := fresh_of_local (uses_call.mpr rfl) hfirst hfresh
    cases stop with
    | true =>
        obtain ⟨-, -, rfl⟩ := Executes.of_ret hrest
        exact hw₁
    | false =>
        rcases Executes.of_bind hrest with ⟨_, poll, w₂, last, hpoll, hlast, rfl⟩ |
          ⟨exc, rfl, hpoll⟩
        · refine fresh_of_local (.bind (.tryExcept (uses_call.mpr rfl) fun exc => ?_)
            fun _ => uses_ret _) hlast (fresh_of_poll hpoll hw₁)
          split
          · exact uses_ret _
          · exact uses_raise _
        · exact fresh_of_poll hpoll hw₁
  · exact fresh_of_local (uses_call.mpr rfl) hfirst hfresh

/-- What the others leave task `t`, its arrival included. -/
def Leaves (t : Tid) (w w' : World) : Prop :=
  Spared t w w' ∧ ∀ arrival, w.arrivals t = some arrival → w'.arrivals t = some arrival

/-- At the beginning of a turn a publisher has no session. -/
def BeginsTurn (t : Tid) (entry : Entry) (w : World) : Prop :=
  (∃ before, w.arrivals t = some ⟨entry, before⟩) ∧
    ∀ app, entry = .outboxPublisher app → w.db.writes t = []

theorem Leaves.perform {u : Tid} {op : Op} {choice : Choice} {answer : Except PyExc op.Ans}
    (h : World.perform u op choice w = some (answer, w')) (hne : t ≠ u) : Leaves t w w' :=
  ⟨.perform h hne, fun arrival harrival => by rwa [(World.perform_tasks h).1]⟩

theorem arrivals_of_executes {α : Type} {program : Py α} {outcome : Except PyExc α}
    (h : Executes ((system settings).scene t (Leaves t)) program w moments outcome w')
    {arrival : Arrival} (harrival : w.arrivals t = some arrival) :
    w'.arrivals t = some arrival := by
  have htrans : ∀ {a b c : World},
      (a.arrivals t = some arrival → b.arrivals t = some arrival) →
      (b.arrivals t = some arrival → c.arrivals t = some arrival) →
      a.arrivals t = some arrival → c.arrivals t = some arrival := fun hab hbc => hbc ∘ hab
  have hspans := h.spans
    (R := fun a b => a.arrivals t = some arrival → b.arrivals t = some arrival)
    (fun _ => id) htrans
    (fun {a b} (hleaves : Leaves t a b) => hleaves.2 arrival)
    fun hperform ha => by rwa [(World.perform_tasks hperform).1]
  exact hspans.1 harrival

theorem system_takesTurns (settings : Settings) :
    (system settings).TakesTurns Leaves (fun t w => w.db.writes t = []) BeginsTurn where
  refl := fun t w => ⟨⟨rfl, rfl, .refl _⟩, fun _ h => h⟩
  trans := fun hab hbc =>
    ⟨⟨hbc.1.writes.trans hab.1.writes, hbc.1.traceId.trans hab.1.traceId,
      hab.1.photos.trans hbc.1.photos⟩, fun arrival h => hbc.2 arrival (hab.2 arrival h)⟩
  idle_rely := fun hleaves hidle => hleaves.1.writes.trans hidle
  opens := fun entry hidle => ⟨⟨_, Function.update_self ..⟩, fun _ _ => hidle⟩
  again := by
    intro t entry w w' turn moments hturn hbegins hexecutes
    obtain ⟨⟨before, harrival⟩, hfresh⟩ := hbegins
    refine ⟨⟨before, arrivals_of_executes hexecutes harrival⟩, ?_⟩
    rintro app rfl
    obtain rfl : turn = Outbox.turn settings app := hturn.elim id id
    exact fresh_of_turn (hexecutes.mono fun a b (hleaves : Leaves t a b) => hleaves.1)
      (hfresh app rfl)
  performs := fun hne hperform => .perform hperform hne
  opened := fun entry w hne => ⟨(Speaks.opened _ entry w).others _ hne,
    fun arrival h => (Function.update_of_ne hne ..).trans h⟩
  closed := fun outcome w hne => ⟨(Speaks.closed _ outcome w).others _ hne, fun _ h => h⟩
  external := fun t event w => ⟨.external t event w, fun arrival h => by
    cases event <;> exact h⟩

/--
Whatever the schedule, each turn that a publisher has come to the end of is an
execution in a new session, among tasks that spare it.
-/
theorem outbox_turns {state : State} (h : Reachable settings state) {arrival : Arrival}
    (harrival : state.world.arrivals t = some arrival)
    (hentry : arrival.entry = .outboxPublisher app)
    {outcome : Except PyExc (Option Reply)} {loop : Py (Option Reply)}
    (htask : state.tasks t = .running (.ofExcept outcome) loop) :
    ∃ begun moments ended, begun.db.writes t = [] ∧
      Executes (among t) (Outbox.turn settings app) begun moments outcome ended ∧
      Spared t ended state.world := by
  have hstart : ∀ t, (system settings).InTurn Leaves (fun t w => w.db.writes t = [])
      BeginsTurn start.world t (start.tasks t) := fun _ => rfl
  have hpool := Machine.inTurn_of_leads (system_takesTurns settings) hstart h t
  rw [htask] at hpool
  obtain ⟨entry, turn, begun, moments, -, hturn, ⟨⟨before, hbegun⟩, hfresh⟩, hpart⟩ :=
    hpool
  obtain ⟨ended, hexecutes, hleaves⟩ := hpart.executes
  have hsame := hleaves.2 _ (arrivals_of_executes hexecutes hbegun)
  obtain rfl : entry = .outboxPublisher app := by
    rw [← hentry, Option.some.inj (harrival.symm.trans hsame)]
  obtain rfl : turn = Outbox.turn settings app := hturn.elim id id
  exact ⟨begun, moments, ended, hfresh app rfl,
    hexecutes.mono fun a b (hbetween : Leaves t a b) => hbetween.1, hleaves.1⟩

end

/-! ## An iteration that is broken off -/

/-- The rows a moment has selected. -/
def selectedRows : Moment Op Op.Ans PyExc World → List Photo
  | ⟨_, .select (.unpublished _), .ok rows, _⟩ => rows
  | _ => []

/-- The sends of a row. -/
def sendsOf (row : Photo) (moments : Moments) : Nat :=
  moments.countP fun moment => match moment.op with
    | .sendAndWait _ _ key => Text.utf8Encode row.photoId.text = some key
    | _ => false

def World.publishStatus (w : World) (id : UUID) : Option PublishStatus :=
  (w.db.committed.photo id).map Photo.publishStatus

instance (w : World) (app : Nat) : Decidable (w.Started app) :=
  inferInstanceAs (Decidable (_ ∧ _))

def unsentRow (id : UUID) (createdAt : Time) : Photo where
  photoId := id
  filename := py "a.jpg"
  objectKey := PhotoService.objectKey id (py "jpg")
  createdAt := createdAt
  status := .pending
  attempts := 0
  lastErrorCode := none
  lastErrorMessage := none
  publishStatus := .notSent
  publishedAt := none
  traceId := some (py "r")
  batchId := none

/-- Two rows to publish, and the producer of process 0 started. -/
def twoUnsent : World :=
  { World.initial with
    db := .empty ⟨⟨[unsentRow 1#128 10, unsentRow 2#128 20], by decide⟩, .empty, .empty⟩
    producers := fun _ => { producer := some 0, started := true } }

/-- A row that is sent and marked. -/
def sendsRow : List Choice := [.ok, .ok, .ok, .ok, .time 30, .ok, .ok]

/-- A poll that selects both rows, but for what becomes of them. -/
def selectsBoth (choices : List Choice) : List Choice :=
  [.ok, .ok, .rows [1#128, 2#128]] ++ choices ++
    [.ok, .fail (.timeout (py "not stopped")) true]

/-- The iteration that these choices make. -/
def iterated (choices : List Choice) :
    Option (Moments × Except PyExc (Option Reply) × World) :=
  (among 0).drive (Outbox.turn defaultSettings 0) choices twoUnsent

theorem iterates_of_any {choices : List Choice} {p : Moments → Bool}
    (h : (iterated choices).any (fun result =>
      decide (∀ moment ∈ result.1, moment.before.Started 0) &&
        decide (result.2.1 = .ok none) && p result.1) = true) :
    ∃ moments w', Iterates defaultSettings 0 0 twoUnsent moments (.ok none) w' ∧
      p moments = true := by
  obtain ⟨⟨moments, outcome, w'⟩, hdrive, hchecks⟩ := (Option.any_eq_true _ _).mp h
  simp only [Bool.and_eq_true, decide_eq_true_eq] at hchecks
  obtain ⟨⟨hstarted, rfl⟩, hp⟩ := hchecks
  have hexecutes :=
    Executes.of_drive (fun w => (⟨rfl, rfl, .refl _⟩ : Spared 0 w w)) hdrive
  exact ⟨moments, w', ⟨rfl, hexecutes, nofun, hstarted⟩, hp⟩

/-- The send of the first row fails, and the second row is sent. -/
theorem outbox_iteration_half : ∃ moments w',
    Iterates defaultSettings 0 0 twoUnsent moments (.ok none) w' ∧
      (moments.map fun moment => selectedRows moment).flatten =
        [unsentRow 1#128 10, unsentRow 2#128 20] ∧
      ∃ it : Iteration, it.moments defaultSettings.outboxBatchSize = moments ∧
        OutboxAccount defaultSettings 0 0 twoUnsent w' it (.ok none) := by
  obtain ⟨moments, w', hiterates, hrows⟩ :=
    @iterates_of_any (selectsBoth ([.ok, .ok, .ok, .fail (.kafka (py "down")) true, .ok,
      .ok] ++ sendsRow ++ [.ok])) (fun moments => decide
        ((moments.map fun moment => selectedRows moment).flatten =
          [unsentRow 1#128 10, unsentRow 2#128 20])) (by decide +kernel)
  exact ⟨moments, w', hiterates, of_decide_eq_true hrows, outbox_iteration hiterates⟩

/--
The send of the first row raises what the row does not catch, and the second is never
sent; the commit raises after it has taken effect, and both are marked.
-/
theorem outbox_iteration_broken :
    ¬(∀ (settings : Settings) (app : Nat) (t : Tid) (w : World) (moments : Moments)
      (outcome : Except PyExc (Option Reply)) (w' : World),
      Iterates settings app t w moments outcome w' →
        ∀ moment ∈ moments, ∀ row ∈ selectedRows moment, sendsOf row moments = 1) ∧
    ¬(∀ (settings : Settings) (app : Nat) (t : Tid) (w : World) (moments : Moments)
      (outcome : Except PyExc (Option Reply)) (w' : World),
      Iterates settings app t w moments outcome w' →
        ∀ moment ∈ moments, ∀ exc, moment.answer = .error exc → exc.isException →
          ¬exc.isPublishFailure → ∀ moment' ∈ moments, ∀ id,
            moment'.after.publishStatus id = moment'.before.publishStatus id) := by
  refine ⟨fun h => ?_, fun h => ?_⟩
  · obtain ⟨moments, w', hiterates, hskips⟩ :=
      @iterates_of_any
        (selectsBoth [.ok, .ok, .ok, .fail (.runtime (py "broken")) true, .ok])
        (fun moments => moments.any fun moment => (selectedRows moment).any fun row =>
          sendsOf row moments != 1) (by decide +kernel)
    obtain ⟨moment, hmoment, hrow⟩ := List.any_eq_true.mp hskips
    obtain ⟨row, hrow, hsends⟩ := List.any_eq_true.mp hrow
    exact (bne_iff_ne.mp hsends) (h _ _ _ _ _ _ _ hiterates moment hmoment row hrow)
  · obtain ⟨moments, w', hiterates, hchecks⟩ :=
      @iterates_of_any (selectsBoth (sendsRow ++ sendsRow ++
          [.failAfter (.database (py "connection lost"))]))
        (fun moments => (moments.any fun moment => match moment.answer with
            | .error exc => exc.isException && !exc.isPublishFailure
            | .ok _ => false) &&
          moments.any fun moment => decide (moment.after.publishStatus 1#128 ≠
            moment.before.publishStatus 1#128)) (by decide +kernel)
    obtain ⟨hraises, hmarks⟩ := (Bool.and_eq_true _ _).mp hchecks
    obtain ⟨moment, hmoment, hexc⟩ := List.any_eq_true.mp hraises
    obtain ⟨moment', hmoment', hmark⟩ := List.any_eq_true.mp hmarks
    split at hexc
    next exc hanswer =>
      simp only [Bool.and_eq_true, Bool.not_eq_true'] at hexc
      exact of_decide_eq_true hmark (h _ _ _ _ _ _ _ hiterates moment hmoment exc hanswer
        hexc.1 (by simp [hexc.2]) moment' hmoment' _)
    next => cases hexc

end PhotoAnalysis
