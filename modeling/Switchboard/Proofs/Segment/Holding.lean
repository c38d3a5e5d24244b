import Switchboard.Proofs.Segment.Dispenser
set_option autoImplicit false

/-! # Segments that are held

A segment that was handed out and has not come to its end is the open one (`Dispenser.Stands`). Its
holder polls it once or many times, and gives it up at last, maybe half-read. `Dispenser.Takes` says
what polls do together, so that one poll, measuring and skimming share it, and `Dispenser.Leaves`
says what is left when the segment was given up. -/

namespace Switchboard

namespace Dispenser

/-- A held segment is the open one, or its holder knows that nothing more comes. -/
structure Stands (d : Dispenser) (s : Segment) : Prop where
  opened : s.done = false → s.index = d.ended ∧ d.issued = d.ended + 1 ∧ d.orphaned = false
  closed : s.done = true → s.index < d.ended ∨ d.failure.isSome = true

/-- The holder of a segment has polled it any number of times, and got these chunks of it. -/
structure Takes (delimiter : Bytes) (taken : List Supply) (past : List Entry) (d : Dispenser)
    (s : Segment) (chunks : List Bytes) (taken' : List Supply) (past' : List Entry)
    (d' : Dispenser) (s' : Segment) : Prop where
  tracks : d'.Tracks delimiter taken' past'
  stands : d'.Stands s'
  grows : d.Grows past d' past'
  supplied : taken' ++ d'.source.queue = taken ++ d.source.queue
  issued_eq : d'.issued = d.issued
  orphaned_eq : d'.orphaned = d.orphaned
  index_eq : s'.index = s.index
  chunk_ne_nil : ∀ bytes ∈ chunks, bytes ≠ []
  content_eq : contentAt past' s.index = contentAt past s.index ++ chunks.flatten
  ended_eq : d'.ended = d.ended ∨ (s.done = false ∧ s'.done = true ∧ d'.ended = d.ended + 1)
  of_done : s.done = true → s'.done = true ∧ past' = past ∧ d'.ended = d.ended

section

variable {delimiter : Bytes} {taken : List Supply} {past : List Entry} {d : Dispenser} {s : Segment}

theorem Takes.refl (h : d.Tracks delimiter taken past) (hs : d.Stands s) :
    Takes delimiter taken past d s [] taken past d s where
  tracks := h
  stands := hs
  grows := .refl d past
  supplied := rfl
  issued_eq := rfl
  orphaned_eq := rfl
  index_eq := rfl
  chunk_ne_nil := by simp
  content_eq := by simp
  ended_eq := .inl rfl
  of_done := fun hdone => ⟨hdone, rfl, rfl⟩

theorem Takes.trans {taken₁ taken₂ : List Supply} {past₁ past₂ : List Entry} {d₁ d₂ : Dispenser}
    {s₁ s₂ : Segment} {chunks chunks' : List Bytes}
    (h : Takes delimiter taken past d s chunks taken₁ past₁ d₁ s₁)
    (h' : Takes delimiter taken₁ past₁ d₁ s₁ chunks' taken₂ past₂ d₂ s₂) :
    Takes delimiter taken past d s (chunks ++ chunks') taken₂ past₂ d₂ s₂ where
  tracks := h'.tracks
  stands := h'.stands
  grows := h.grows.trans h'.grows
  supplied := h'.supplied.trans h.supplied
  issued_eq := h'.issued_eq.trans h.issued_eq
  orphaned_eq := h'.orphaned_eq.trans h.orphaned_eq
  index_eq := h'.index_eq.trans h.index_eq
  chunk_ne_nil := by
    intro bytes hbytes
    rcases List.mem_append.mp hbytes with hfirst | hnext
    · exact h.chunk_ne_nil bytes hfirst
    · exact h'.chunk_ne_nil bytes hnext
  content_eq := by
    have hcontent := h'.content_eq
    rw [h.index_eq, h.content_eq] at hcontent
    rw [hcontent, List.append_assoc, List.flatten_append]
  ended_eq := by
    -- The segment ends in one of the two parts at most: after its end it is done, and `of_done`
    -- says that nothing moves any more.
    rcases h.ended_eq with hended | ⟨hopen, hdone, hended⟩
    · rcases h'.ended_eq with hended' | ⟨hopen', hdone', hended'⟩
      · exact .inl (hended'.trans hended)
      · refine .inr ⟨?_, hdone', by omega⟩
        cases hs : s.done with
        | false => rfl
        | true =>
          rw [(h.of_done hs).1] at hopen'
          cases hopen'
    · obtain ⟨hdone', -, hended'⟩ := h'.of_done hdone
      exact .inr ⟨hopen, hdone', hended'.trans hended⟩
  of_done := by
    intro hdone
    obtain ⟨hdone₁, hpast₁, hended₁⟩ := h.of_done hdone
    obtain ⟨hdone₂, hpast₂, hended₂⟩ := h'.of_done hdone₁
    exact ⟨hdone₂, hpast₂.trans hpast₁, hended₂.trans hended₁⟩

end

/-! ## One poll -/

/-- The chunks in an answer: one or none. -/
def chunksIn : InnerPoll → List Bytes
  | .chunk bytes => [bytes]
  | _ => []

section

variable {delimiter : Bytes} {taken : List Supply} {past : List Entry} {d : Dispenser} {s : Segment}

/-- The answer that the open segment has is a poll of whoever holds it. -/
theorem Answers.takes (h : d.Tracks delimiter taken past) (hs : d.Stands s) (hopen : s.done = false)
    {taken' : List Supply} {past' : List Entry} {d' : Dispenser} {answer : InnerPoll} {done : Bool}
    (hanswers : Answers delimiter taken' past d (answer, done) past' d')
    (hsupplied : taken' ++ d'.source.queue = taken ++ d.source.queue) :
    Takes delimiter taken past d s (chunksIn answer) taken' past' d' { s with done := done } := by
  obtain ⟨hindex, hissued, horphaned⟩ := hs.opened hopen
  have hends : s.index = endsIn past := hindex.trans h.ended_eq
  have hended' := hanswers.tracks.ended_eq
  have hended := h.ended_eq
  have hissued' := hanswers.issued_eq
  have hread := hanswers.read
  have hfailure := hanswers.failure_of
  refine ⟨hanswers.tracks, ⟨fun hdone => ?_, fun hdone => ?_⟩, hanswers.grows, hsupplied,
    hissued', hanswers.orphaned_eq, rfl, ?_, ?_, ?_, fun hdone => ?_⟩
  · cases hread with
    | chunk hne =>
      simp only [endsIn_append, endsIn_chunk_cons, endsIn_nil] at hended'
      exact ⟨by simp only; omega, by omega, hanswers.orphaned_eq.trans horphaned⟩
    | ended => cases hdone
    | pending => exact ⟨by simp only; omega, by omega, hanswers.orphaned_eq.trans horphaned⟩
    | failed error => cases hdone
  · cases hread with
    | chunk hne => cases hdone
    | ended =>
      simp only [endsIn_append, endsIn_close_cons, endsIn_nil] at hended'
      exact .inl (by simp only; omega)
    | pending => cases hdone
    | failed error => exact .inr (by rw [hfailure error rfl, Option.isSome_some])
  · cases hread with
    | chunk hne => simpa [chunksIn] using hne
    | ended => simp [chunksIn]
    | pending => simp [chunksIn]
    | failed error => simp [chunksIn]
  · cases hread with
    | chunk hne => rw [hends, contentAt_chunk_open, chunksIn, List.flatten_singleton]
    | ended => simp [contentAt_close, chunksIn]
    | pending => simp [chunksIn]
    | failed error => simp [chunksIn]
  · cases hread with
    | chunk hne =>
      simp only [endsIn_append, endsIn_chunk_cons, endsIn_nil] at hended'
      exact .inl (by omega)
    | ended =>
      simp only [endsIn_append, endsIn_close_cons, endsIn_nil] at hended'
      exact .inr ⟨hopen, rfl, by omega⟩
    | pending => exact .inl (by omega)
    | failed error => exact .inl (by omega)
  · rw [hopen] at hdone
    cases hdone

/-- **A poll of a held segment.** -/
theorem Tracks.pollSegment (h : d.Tracks delimiter taken past) (hs : d.Stands s) (caller : Caller) :
    ∃ taken' past', Takes delimiter taken past d s (chunksIn (d.pollSegment caller s).2.2) taken'
        past' (d.pollSegment caller s).1 (d.pollSegment caller s).2.1 ∧
      ((d.pollSegment caller s).2.2 = .ended → (d.pollSegment caller s).2.1.done = true) ∧
      ((d.pollSegment caller s).1.ended = d.ended + 1 → (d.pollSegment caller s).2.2 = .ended) ∧
      ∀ error, (d.pollSegment caller s).2.2 = .failed error →
        (d.pollSegment caller s).1.failure = some error := by
  cases hdone : s.done with
  | true =>
    have hpoll : d.pollSegment caller s = (d, s, .ended) := by
      rw [Dispenser.pollSegment, if_pos hdone]
    rw [hpoll]
    exact ⟨taken, past, .refl h hs, fun _ => hdone, fun _ => rfl, fun _ h' => by cases h'⟩
  | false =>
    obtain ⟨hindex, hissued, horphaned⟩ := hs.opened hdone
    have hwaiting : d.Grows past { d with innerWaiter := some caller } past := grows_of_core rfl
    obtain ⟨taken', past', hsupplied, hanswers⟩ :=
      Tracks.innerLoop (d := { d with innerWaiter := some caller }) (h.congr rfl) hissued horphaned
        d.source.queue
    rw [Dispenser.pollSegment, if_neg (by simp [hdone]), if_neg (by simp [hindex])]
    generalize Dispenser.innerLoop _ _ = result at *
    obtain ⟨d', answer, done⟩ := result
    have hanswers' : Answers delimiter taken' past d (answer, done) past' d' :=
      ⟨hanswers.tracks, hanswers.read, hwaiting.trans hanswers.grows, hanswers.issued_eq,
        hanswers.orphaned_eq, hanswers.failure_of⟩
    have hread := hanswers.read
    have hended := h.ended_eq
    have hended' := hanswers.tracks.ended_eq
    refine ⟨taken', past', hanswers'.takes h hs hdone hsupplied, ?_, fun hclosed => ?_, ?_⟩
    · rintro rfl
      cases hread
      rfl
    · have hclosed : d'.ended = d.ended + 1 := hclosed
      rw [hended', hended] at hclosed
      cases hread with
      | chunk hne => simp at hclosed
      | ended => rfl
      | pending => omega
      | failed error => omega
    · rintro error rfl
      cases hread
      exact hanswers.failure_of error rfl

/-! ## Reading on -/

/-- **Measuring.** The size is that of what was left of the segment, which ends then. -/
theorem Tracks.measureWithin (bound : Nat) (h : d.Tracks delimiter taken past) (hs : d.Stands s)
    (size : Nat) :
    ∃ chunks taken' past', Takes delimiter taken past d s chunks taken' past'
        (Dispenser.measureWithin bound d s size).1 (Dispenser.measureWithin bound d s size).2.1 ∧
      (∀ n, (Dispenser.measureWithin bound d s size).2.2 = .size n →
        (Dispenser.measureWithin bound d s size).2.1.done = true ∧
          n = size + chunks.flatten.length) ∧
      ∀ error, (Dispenser.measureWithin bound d s size).2.2 = .failed error →
        (Dispenser.measureWithin bound d s size).1.failure = some error := by
  -- Each poll but the last gives a chunk, whose length is counted before the rest is measured.
  induction bound generalizing d s taken past size with
  | zero => exact ⟨[], taken, past, .refl h hs, nofun, nofun⟩
  | succ bound ih =>
    obtain ⟨taken₁, past₁, htakes, hended, -, hfailed⟩ := h.pollSegment hs .nobody
    rw [Dispenser.measureWithin]
    generalize d.pollSegment .nobody s = result at *
    obtain ⟨d₁, s₁, answer⟩ := result
    cases answer with
    | chunk bytes =>
      obtain ⟨chunks, taken₂, past₂, htakes', hsize, hfailed'⟩ :=
        ih htakes.tracks htakes.stands (size + bytes.length)
      refine ⟨bytes :: chunks, taken₂, past₂, htakes.trans htakes', fun n hn => ?_, hfailed'⟩
      obtain ⟨hdone, hn⟩ := hsize n hn
      exact ⟨hdone, by rw [hn, List.flatten_cons, List.length_append]; omega⟩
    | failed error =>
      refine ⟨[], taken₁, past₁, htakes, nofun, ?_⟩
      rintro _ ⟨⟩
      exact hfailed error rfl
    | pending => exact ⟨[], taken₁, past₁, htakes, nofun, nofun⟩
    | ended =>
      refine ⟨[], taken₁, past₁, htakes, ?_, nofun⟩
      rintro _ ⟨⟩
      exact ⟨hended rfl, rfl⟩

/-- **Skimming.** The number is that of bytes of the segment that were read. -/
theorem Tracks.skimWithin (limit fuel : Nat) (h : d.Tracks delimiter taken past) (hs : d.Stands s)
    (size : Nat) {result : Except BodyError Nat} {d' : Dispenser} {s' : Segment}
    (hskim : Body.skimWithin (pollAsBody .nobody) limit fuel size (d, s) = some (result, d', s')) :
    ∃ chunks taken' past', Takes delimiter taken past d s chunks taken' past' d' s' ∧
      (∀ n, result = .ok n → n = size + chunks.flatten.length) ∧
      (∀ error, result = .error error → d'.failure.isSome = true) := by
  induction fuel generalizing d s taken past size with
  | zero =>
    rw [Body.skimWithin] at hskim
    split at hskim
    · cases hskim
      exact ⟨[], taken, past, .refl h hs, by rintro _ ⟨⟩; rfl, nofun⟩
    · cases hskim
  | succ fuel ih =>
    obtain ⟨taken₁, past₁, htakes, -, -, hfailed⟩ := h.pollSegment hs .nobody
    rw [Body.skimWithin, pollAsBody] at hskim
    split at hskim
    · cases hskim
      exact ⟨[], taken, past, .refl h hs, by rintro _ ⟨⟩; rfl, nofun⟩
    · generalize d.pollSegment .nobody s = polled at *
      obtain ⟨d₁, s₁, answer⟩ := polled
      cases answer with
      | chunk bytes =>
        obtain ⟨chunks, taken₂, past₂, htakes', hsize, hfailed'⟩ :=
          ih htakes.tracks htakes.stands (size + bytes.length) hskim
        refine ⟨bytes :: chunks, taken₂, past₂, htakes.trans htakes', fun n hn => ?_, hfailed'⟩
        rw [hsize n hn, List.flatten_cons, List.length_append]
        omega
      | failed error =>
        cases hskim
        refine ⟨[], taken₁, past₁, htakes, nofun, fun _ _ => ?_⟩
        rw [hfailed error rfl, Option.isSome_some]
      | pending =>
        cases hskim
        exact ⟨[], taken₁, past₁, htakes, by rintro _ ⟨⟩; rfl, nofun⟩
      | ended =>
        cases hskim
        exact ⟨[], taken₁, past₁, htakes, by rintro _ ⟨⟩; rfl, nofun⟩

/-! ## Giving a segment up -/

/-- A segment was given up, after `content` more of it was read. Unless it had ended, this orphans
it, or skips it to its end if that is queued. -/
structure Leaves (delimiter : Bytes) (taken : List Supply) (past : List Entry) (d : Dispenser)
    (s : Segment) (content : Bytes) (taken' : List Supply) (past' : List Entry) (d' : Dispenser) :
    Prop where
  tracks : d'.Tracks delimiter taken' past'
  grows : d.Grows past d' past'
  supplied : taken' ++ d'.source.queue = taken ++ d.source.queue
  issued_eq : d'.issued = d.issued
  content_begins : contentAt past s.index ++ content <+: contentAt past' s.index
  of_done : s.done = true → past' = past ∧ d'.ended = d.ended ∧ d'.orphaned = d.orphaned
  of_open : s.done = false →
    d'.ended = d.ended ∨ (d'.ended = d.ended + 1 ∧ d'.orphaned = false)

/-- Only waking others is left to do when a segment that is dropped has ended or failed. -/
theorem Tracks.leaves_of_core (h : d.Tracks delimiter taken past) {d' : Dispenser}
    (hcore : d'.core = d.core) (hsource : d'.source = d.source) :
    Leaves delimiter taken past d s [] taken past d' where
  tracks := h.congr hcore
  grows := grows_of_core hcore
  supplied := by rw [hsource]
  issued_eq := congrArg Core.issued hcore
  content_begins := by simp
  of_done := fun _ => ⟨rfl, congrArg Core.ended hcore, congrArg Core.orphaned hcore⟩
  of_open := fun _ => .inl (congrArg Core.ended hcore)

/-- A held segment becomes an orphan: the deciding fields but one stay. -/
theorem Tracks.orphan (h : d.Tracks delimiter taken past) (hopen : d.issued = d.ended + 1) :
    Tracks delimiter taken past { d with orphaned := true } :=
  ⟨⟨h.reflects.connected_iff, h.reflects.drained_iff, h.reflects.failure_iff⟩, h.renders,
    h.chunk_ne_nil, h.ended_eq, h.opened_of_closed, h.issued_eq, fun _ => hopen,
    h.queue_of_drained, h.queue_of_failure⟩

/-- **Dropping a segment.** -/
theorem Tracks.dropSegment (h : d.Tracks delimiter taken past) (hs : d.Stands s) :
    ∃ past', Leaves delimiter taken past d s [] taken past' (d.dropSegment s) := by
  cases hdone : s.done with
  | true =>
    rw [Dispenser.dropSegment, if_pos hdone]
    exact ⟨past, h.leaves_of_core rfl rfl⟩
  | false =>
    obtain ⟨hindex, hissued, -⟩ := hs.opened hdone
    by_cases hfailure : d.failure.isNone = true
    · have hdrop : d.dropSegment s =
          (Dispenser.skipOrphan { d with orphaned := true }).wakeOuter := by
        rw [Dispenser.dropSegment, if_neg (by simp [hdone]), if_pos (by simp [hindex, hfailure])]
      rw [hdrop]
      obtain ⟨past', htracks, hskips⟩ := (h.orphan hissued).skipOrphan rfl
      have hmarked : d.Grows past { d with orphaned := true } past :=
        ⟨Nat.le_refl _, fun _ herror => herror, fun _ => List.prefix_rfl, fun _ _ => rfl⟩
      generalize Dispenser.skipOrphan _ = left at *
      have hcore := core_wakeOuter left
      have hgrows := (hmarked.trans hskips.grows).trans (grows_of_core hcore)
      refine ⟨past', htracks.congr hcore, hgrows, ?_, ?_, ?_, fun h' => ?_, fun _ => ?_⟩
      · rw [source_wakeOuter, hskips.source_eq]
      · exact (congrArg Core.issued hcore).trans hskips.issued_eq
      · rw [List.append_nil]
        exact hgrows.content_begins s.index
      · rw [hdone] at h'
        cases h'
      · have hended := congrArg Core.ended hcore
        rcases hskips.outcome with ⟨hgone, hended'⟩ | ⟨-, hended', -⟩
        · exact .inr ⟨hended.trans hended', (congrArg Core.orphaned hcore).trans hgone⟩
        · exact .inl (hended.trans hended')
    · have hdrop : d.dropSegment s = d.wakeOuter := by
        rw [Dispenser.dropSegment, if_neg (by simp [hdone]), if_neg (by simp [hfailure])]
      -- After a failure there is no end to skip to, and the segment stays as it is.
      rw [hdrop]
      exact ⟨past, h.leaves_of_core (core_wakeOuter d) (source_wakeOuter d)⟩

/-- Reading a segment and giving it up then. -/
theorem Takes.leaves {chunks : List Bytes} {taken' : List Supply} {past' past'' : List Entry}
    {d' d'' : Dispenser} {s' : Segment}
    (h : Takes delimiter taken past d s chunks taken' past' d' s')
    (h' : Leaves delimiter taken' past' d' s' [] taken' past'' d'') (hs : d.Stands s) :
    Leaves delimiter taken past d s chunks.flatten taken' past'' d'' where
  tracks := h'.tracks
  grows := h.grows.trans h'.grows
  supplied := h'.supplied.trans h.supplied
  issued_eq := h'.issued_eq.trans h.issued_eq
  content_begins := by
    rw [← h.content_eq]
    exact h'.grows.content_begins s.index
  of_done := by
    intro hdone
    obtain ⟨hdone', hpast, hended⟩ := h.of_done hdone
    obtain ⟨hpast', hended', horphaned⟩ := h'.of_done hdone'
    exact ⟨hpast'.trans hpast, hended'.trans hended, horphaned.trans h.orphaned_eq⟩
  of_open := by
    intro hopen
    have horphaned : d'.orphaned = false := h.orphaned_eq.trans (hs.opened hopen).2.2
    rcases h.ended_eq with hended | ⟨-, hdone, hended⟩
    · cases hdone : s'.done with
      | true => exact .inl ((h'.of_done hdone).2.1.trans hended)
      | false =>
        rcases h'.of_open hdone with hended' | ⟨hended', hgone⟩
        · exact .inl (hended'.trans hended)
        · exact .inr ⟨by omega, hgone⟩
    · obtain ⟨-, hended', hsame⟩ := h'.of_done hdone
      exact .inr ⟨hended'.trans hended, hsame.trans horphaned⟩

/-- **Measuring a segment** uses it up. A size that it gives is that of all that was left. -/
theorem Tracks.measureSegment (h : d.Tracks delimiter taken past) (hs : d.Stands s) :
    ∃ content taken' past', Leaves delimiter taken past d s content taken' past'
        (d.measureSegment s).1 ∧
      (∀ n, (d.measureSegment s).2 = .size n →
        contentAt past' s.index = contentAt past s.index ++ content ∧ n = content.length ∧
          (s.index < (d.measureSegment s).1.ended ∨
            (d.measureSegment s).1.failure.isSome = true)) ∧
      ∀ error, (d.measureSegment s).2 = .failed error →
        (d.measureSegment s).1.failure = some error := by
  obtain ⟨chunks, taken', past', htakes, hsize, hfailed⟩ := h.measureWithin (d.chunkBound + 1) hs 0
  have hmeasure : d.measureSegment s =
      ((Dispenser.measureWithin (d.chunkBound + 1) d s 0).1.dropSegment
          (Dispenser.measureWithin (d.chunkBound + 1) d s 0).2.1,
        (Dispenser.measureWithin (d.chunkBound + 1) d s 0).2.2) := rfl
  rw [hmeasure]
  generalize Dispenser.measureWithin (d.chunkBound + 1) d s 0 = result at *
  obtain ⟨d', s', measured⟩ := result
  obtain ⟨past'', hleaves⟩ := htakes.tracks.dropSegment htakes.stands
  refine ⟨chunks.flatten, taken', past'', htakes.leaves hleaves hs, fun n hn => ?_,
    fun error herror => hleaves.grows.failure_mono error (hfailed error herror)⟩
  obtain ⟨hdone, hn⟩ := hsize n hn
  have hsame : d'.dropSegment s' = d' := by rw [Dispenser.dropSegment, if_pos hdone]
  refine ⟨?_, by rw [hn, Nat.zero_add], ?_⟩
  · rw [(hleaves.of_done hdone).1, htakes.content_eq]
  · rw [hsame, ← htakes.index_eq]
    exact htakes.stands.closed hdone

/-- **Skimming a segment** uses it up. A number that it gives is at most what was left. -/
theorem Tracks.skimSegment (h : d.Tracks delimiter taken past) (hs : d.Stands s) (limit : Nat) :
    ∃ content taken' past', Leaves delimiter taken past d s content taken' past'
        (d.skimSegment s limit).1 ∧
      (∀ n, (d.skimSegment s limit).2 = .ok n → n = content.length) ∧
      ∀ error, (d.skimSegment s limit).2 = .error error →
        (d.skimSegment s limit).1.failure.isSome = true := by
  rw [Dispenser.skimSegment]
  cases hskim : Body.skimWithin (pollAsBody .nobody) limit (d.chunkBound + 1) 0 (d, s) with
  | none =>
    obtain ⟨past', hleaves⟩ := h.dropSegment hs
    exact ⟨[], taken, past', hleaves, by rintro _ ⟨⟩; rfl, nofun⟩
  | some result =>
    obtain ⟨result, d', s'⟩ := result
    obtain ⟨chunks, taken', past', htakes, hsize, hfailed⟩ := h.skimWithin limit _ hs 0 hskim
    obtain ⟨past'', hleaves⟩ := htakes.tracks.dropSegment htakes.stands
    refine ⟨chunks.flatten, taken', past'', htakes.leaves hleaves hs, fun n hn => ?_,
      fun error herror => ?_⟩
    · rw [hsize n hn, Nat.zero_add]
    · obtain ⟨error', herror'⟩ := Option.isSome_iff_exists.mp (hfailed error herror)
      rw [hleaves.grows.failure_mono error' herror', Option.isSome_some]

end

end Dispenser

end Switchboard
