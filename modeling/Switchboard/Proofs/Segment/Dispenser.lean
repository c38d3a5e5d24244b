import Switchboard.Proofs.Segment.Entries
set_option autoImplicit false

/-! # The state of a dispenser

A dispenser has taken in a part of what its source gives, and a part of the entries that came of it
has left its queue. `Dispenser.Tracks` says what its fields have to do with these two histories:
nothing is lost or made up between the source, the splitter and the queue, and the counters and
flags say truthfully how far things are. One lemma for each operation says how the histories grow;
which side asked, and who is woken, makes no difference to them. -/

namespace Switchboard

/-! ## What a source has given -/

/-- How far a source is after what it has given. -/
inductive SupplyState where
  | arriving
  | done
  | failed (cause : Fault)

/-- How far a source is; nothing counts after its end. -/
def stateOf : List Supply → SupplyState
  | [] => .arriving
  | .chunk _ :: rest => stateOf rest
  | .failure cause :: _ => .failed cause
  | .done :: _ => .done

/-- The bytes that a source has given before its end. -/
def bytesOf : List Supply → Bytes
  | .chunk bytes :: rest => bytes ++ bytesOf rest
  | _ => []

theorem stateOf_append {taken : List Supply} (h : stateOf taken = .arriving)
    (more : List Supply) : stateOf (taken ++ more) = stateOf more := by
  induction taken with
  | nil => rfl
  | cons item taken ih =>
    cases item with
    | chunk bytes => exact ih h
    | failure cause => cases h
    | done => cases h

theorem bytesOf_append {taken : List Supply} (h : stateOf taken = .arriving)
    (more : List Supply) : bytesOf (taken ++ more) = bytesOf taken ++ bytesOf more := by
  induction taken with
  | nil => rfl
  | cons item taken ih =>
    cases item with
    | chunk bytes => simp only [List.cons_append, bytesOf, ih h, List.append_assoc]
    | failure cause => cases h
    | done => cases h

namespace Dispenser

/-! ## What decides over the segments -/

/-- Those fields of a dispenser that decide which segments it gives: all but its source and who
waits or was told. -/
structure Core where
  splitter : Splitter
  connected : Bool
  queue : List Entry
  drained : Bool
  failure : Option SplitError
  issued : Nat
  ended : Nat
  orphaned : Bool

/-- The deciding fields. -/
def core (d : Dispenser) : Core :=
  ⟨d.splitter, d.connected, d.queue, d.drained, d.failure, d.issued, d.ended, d.orphaned⟩

@[simp] theorem core_wakeOuter (d : Dispenser) : d.wakeOuter.core = d.core := by
  unfold wakeOuter
  split <;> rfl

@[simp] theorem core_wakeInner (d : Dispenser) : d.wakeInner.core = d.core := by
  unfold wakeInner
  split <;> rfl

@[simp] theorem core_supply (d : Dispenser) (item : Supply) : (d.supply item).core = d.core := by
  unfold supply
  split
  · rw [core_wakeInner, core_wakeOuter]
    rfl
  · rfl

@[simp] theorem source_wakeOuter (d : Dispenser) : d.wakeOuter.source = d.source := by
  unfold wakeOuter
  split <;> rfl

@[simp] theorem source_wakeInner (d : Dispenser) : d.wakeInner.source = d.source := by
  unfold wakeInner
  split <;> rfl

/-- What is supplied is queued at the source. -/
@[simp] theorem queue_supply (d : Dispenser) (item : Supply) :
    (d.supply item).source.queue = d.source.queue ++ [item] := by
  unfold supply
  split
  · rw [source_wakeInner, source_wakeOuter]
  · rfl

/-! ## The invariant -/

/-- The flags of a dispenser say how far its source is. -/
structure Reflects (state : SupplyState) (d : Dispenser) : Prop where
  connected_iff : d.connected = true ↔ state = .arriving
  drained_iff : d.drained = true ↔ state = .done
  failure_iff : ∀ error,
    d.failure = some error ↔ ∃ cause, state = .failed cause ∧ error = .source cause

theorem reflects_arriving {d : Dispenser} :
    d.Reflects .arriving ↔ d.connected = true ∧ d.drained = false ∧ d.failure = none := by
  constructor
  · rintro ⟨hconnected, hdrained, hfailure⟩
    refine ⟨hconnected.mpr rfl, ?_, ?_⟩
    · simpa using hdrained
    · rw [Option.eq_none_iff_forall_ne_some]
      simpa using hfailure
  · rintro ⟨hconnected, hdrained, hfailure⟩
    exact ⟨by simp [hconnected], by simp [hdrained], by simp [hfailure]⟩

theorem reflects_done {d : Dispenser} :
    d.Reflects .done ↔ d.connected = false ∧ d.drained = true ∧ d.failure = none := by
  constructor
  · rintro ⟨hconnected, hdrained, hfailure⟩
    refine ⟨by simpa using hconnected, hdrained.mpr rfl, ?_⟩
    rw [Option.eq_none_iff_forall_ne_some]
    simpa using hfailure
  · rintro ⟨hconnected, hdrained, hfailure⟩
    exact ⟨by simp [hconnected], by simp [hdrained], by simp [hfailure]⟩

theorem reflects_failed {d : Dispenser} {cause : Fault} :
    d.Reflects (.failed cause) ↔
      d.connected = false ∧ d.drained = false ∧ d.failure = some (.source cause) := by
  constructor
  · rintro ⟨hconnected, hdrained, hfailure⟩
    exact ⟨by simpa using hconnected, by simpa using hdrained, (hfailure _).mpr ⟨cause, rfl, rfl⟩⟩
  · rintro ⟨hconnected, hdrained, hfailure⟩
    exact ⟨by simp [hconnected], by simp [hdrained], by simp [hfailure, eq_comm]⟩

/-- The entries that a dispenser has made of what its source has given. As long as the input has not
ended, `opened` is what has arrived of its last segment, and all of that is among the entries but
the bytes that may belong to a delimiter. -/
structure Arrived (delimiter : Bytes) (taken : List Supply) (entries : List Entry)
    (opened : Bytes) : Prop where
  free : ¬ delimiter <:+: opened
  opened_eq : (joinEntries [] entries).2 = opened.take (opened.length - delimiter.length)
  split_eq : ∀ rest, splitLeftmost delimiter (bytesOf taken ++ rest) =
    (joinEntries [] entries).1 ++ splitLeftmost delimiter (opened ++ rest)

/-- The entries are those of the leftmost split. The splitter is ready for more input while more can
come. -/
def Renders (delimiter : Bytes) (taken : List Supply) (entries : List Entry)
    (splitter : Splitter) : Prop :=
  match stateOf taken with
  | .arriving => ∃ opened, Arrived delimiter taken entries opened ∧
      splitter.Holds delimiter opened (joinEntries [] entries).2
  | .failed _ => ∃ opened, Arrived delimiter taken entries opened
  | .done => joinEntries [] entries = (splitLeftmost delimiter (bytesOf taken), [])

/-- **The invariant of a dispenser** that has taken in `taken` of its source, while `past` has left
its queue. At most one segment is open, which is the one that follows those that have ended; only an
open segment can be orphaned. The source is read when nothing is queued, so a failure finds the
queue empty, and an end leaves the last entries in it. -/
structure Tracks (delimiter : Bytes) (taken : List Supply) (past : List Entry)
    (d : Dispenser) : Prop where
  reflects : d.Reflects (stateOf taken)
  renders : Renders delimiter taken (past ++ d.queue) d.splitter
  chunk_ne_nil : ∀ bytes, .chunk bytes ∈ d.queue → bytes ≠ []
  ended_eq : d.ended = endsIn past
  opened_of_closed : d.issued = d.ended → (joinEntries [] past).2 = []
  issued_eq : d.issued = d.ended ∨ d.issued = d.ended + 1
  issued_of_orphaned : d.orphaned = true → d.issued = d.ended + 1
  queue_of_drained : d.drained = true → (d.issued = d.ended ∧ d.queue = []) ∨
    (d.issued = d.ended + 1 ∧ ∃ chunks : List Bytes, d.queue = chunks.map .chunk ++ [.close])
  queue_of_failure : d.failure.isSome = true → d.queue = []

section

variable {delimiter : Bytes} {taken : List Supply} {past : List Entry} {d : Dispenser}

theorem tracks_ofSplitter {splitter : Splitter} (h : Splitter.ofDelimiter? delimiter = .ok splitter)
    (queue : List Supply) : (ofSplitter splitter queue).Tracks delimiter [] [] where
  reflects := ⟨by simp [ofSplitter, stateOf], by simp [ofSplitter, stateOf],
    by simp [ofSplitter, stateOf]⟩
  renders := by
    have hholds := Splitter.holds_ofDelimiter? h
    exact ⟨[], ⟨hholds.free, by simp [joinEntries, ofSplitter], fun _ => rfl⟩, hholds⟩
  chunk_ne_nil := by simp [ofSplitter]
  ended_eq := rfl
  opened_of_closed := fun _ => rfl
  issued_eq := .inl rfl
  issued_of_orphaned := by simp [ofSplitter]
  queue_of_drained := by simp [ofSplitter]
  queue_of_failure := fun _ => rfl

/-- The invariant speaks of the deciding fields alone. -/
theorem Tracks.congr (h : d.Tracks delimiter taken past) {d' : Dispenser}
    (hcore : d'.core = d.core) : d'.Tracks delimiter taken past := by
  simp only [core, Core.mk.injEq] at hcore
  obtain ⟨hsplitter, hconnected, hqueue, hdrained, hfailure, hissued, hended, horphaned⟩ := hcore
  obtain ⟨⟨h₁, h₂, h₃⟩, h₄, h₅, h₆, h₇, h₈, h₉, h₁₀, h₁₁⟩ := h
  exact ⟨⟨by rwa [hconnected], by rwa [hdrained], by rwa [hfailure]⟩, by rwa [hqueue, hsplitter],
    by rwa [hqueue], by rwa [hended], by rwa [hissued, hended], by rwa [hissued, hended],
    by rwa [horphaned, hissued, hended], by rwa [hdrained, hissued, hended, hqueue],
    by rwa [hfailure, hqueue]⟩

theorem Tracks.delimiter_ne_nil (h : d.Tracks delimiter taken past) (hd : d.connected = true) :
    delimiter ≠ [] := by
  have hrenders := h.renders
  rw [Renders, h.reflects.connected_iff.mp hd] at hrenders
  obtain ⟨_, _, hholds⟩ := hrenders
  exact hholds.delimiter_ne_nil

/-- A dispenser that knows of no failure and whose source has not ended can go on reading it. -/
theorem Tracks.connected_of (h : d.Tracks delimiter taken past) (hfailure : d.failure = none)
    (hdrained : d.drained = false) : d.connected = true := by
  rw [h.reflects.connected_iff]
  cases hstate : stateOf taken with
  | arriving => rfl
  | done =>
    rw [(h.reflects.drained_iff).mpr hstate] at hdrained
    cases hdrained
  | failed cause =>
    rw [(h.reflects.failure_iff _).mpr ⟨cause, hstate, rfl⟩] at hfailure
    cases hfailure

/-- Nothing is queued for the open segment, so that its end is still to come from the source. -/
theorem Tracks.connected_of_open (h : d.Tracks delimiter taken past) (hfailure : d.failure = none)
    (hopen : d.issued = d.ended + 1) (hqueue : d.queue = []) : d.connected = true := by
  have hdrained : d.drained = false := by
    cases hdrained : d.drained with
    | false => rfl
    | true =>
      rcases h.queue_of_drained hdrained with ⟨hclosed, -⟩ | ⟨-, chunks, hchunks⟩
      · omega
      -- A drained source has left the end of the open segment in the queue.
      · simp [hqueue] at hchunks
  exact h.connected_of hfailure hdrained

end

/-! ## Reading the source -/

section

variable {delimiter : Bytes} {taken : List Supply} {past : List Entry} {d : Dispenser}

/-- A chunk that is taken in becomes the entries of the segments that it completes. -/
theorem Tracks.absorb_chunk (h : d.Tracks delimiter taken past) (hconnected : d.connected = true)
    (hqueue : d.queue = []) (bytes : Bytes) :
    (d.absorb (.chunk bytes)).Tracks delimiter (taken ++ [.chunk bytes]) past := by
  have harriving := h.reflects.connected_iff.mp hconnected
  have hstate := stateOf_append harriving [.chunk bytes]
  have hrenders := h.renders
  rw [Renders, harriving] at hrenders
  obtain ⟨opened, harrived, hholds⟩ := hrenders
  obtain ⟨opened', delivered', hholds', hbuffer, hadvances⟩ := hholds.push bytes
  have hjoin : joinEntries [] (past ++ entriesOf (d.splitter.push bytes).2) =
      ((joinEntries [] past).1 ++
          (joinPieces (joinEntries [] past).2 (d.splitter.push bytes).2).1, delivered') := by
    rw [hqueue, List.append_nil] at hadvances
    rw [joinEntries_append, joinEntries_entriesOf, hadvances.delivered_eq]
  rw [hqueue, List.append_nil] at harrived hadvances
  obtain ⟨-, hdrained, hfailure⟩ := reflects_arriving.mp (harriving ▸ h.reflects)
  have hnext : (d.absorb (.chunk bytes)).queue = entriesOf (d.splitter.push bytes).2 := by
    simp [absorb, hqueue]
  refine ⟨?_, ?_, ?_, h.ended_eq, h.opened_of_closed, h.issued_eq, h.issued_of_orphaned, ?_, ?_⟩
  · rw [hstate]
    exact reflects_arriving.mpr ⟨hconnected, hdrained, hfailure⟩
  · rw [Renders, hstate, hnext, hjoin]
    refine ⟨opened', ⟨hholds'.free, ?_, fun rest => ?_⟩, hholds'⟩
    · rw [hjoin]
      simpa [hbuffer] using hholds'.buffer_eq
    -- What came before leaves the new chunk to be split, and the splitter has split it as far as
    -- it goes.
    · have hsplit := harrived.split_eq (bytes ++ rest)
      rw [hjoin, bytesOf_append harriving]
      simp only [bytesOf, List.append_nil] at hsplit ⊢
      rw [List.append_assoc, hsplit, ← List.append_assoc, hadvances.split_eq, List.append_assoc]
  · rw [hnext]
    exact fun _ => chunk_ne_nil_of_mem_entriesOf
  · intro h'
    rw [show (d.absorb (.chunk bytes)).drained = d.drained from rfl, hdrained] at h'
    cases h'
  · intro h'
    rw [show (d.absorb (.chunk bytes)).failure = d.failure from rfl, hfailure] at h'
    cases h'

/-- A failure gives up what has arrived of the open segment and was withheld. -/
theorem Tracks.absorb_failure (h : d.Tracks delimiter taken past) (hconnected : d.connected = true)
    (hqueue : d.queue = []) (cause : Fault) :
    (d.absorb (.failure cause)).Tracks delimiter (taken ++ [.failure cause]) past := by
  have harriving := h.reflects.connected_iff.mp hconnected
  have hstate := stateOf_append harriving [.failure cause]
  have hbytes : bytesOf (taken ++ [.failure cause]) = bytesOf taken := by
    simp [bytesOf_append harriving, bytesOf]
  obtain ⟨-, hdrained, -⟩ := reflects_arriving.mp (harriving ▸ h.reflects)
  have hrenders := h.renders
  rw [Renders, harriving] at hrenders
  obtain ⟨opened, harrived, -⟩ := hrenders
  refine ⟨?_, ?_, h.chunk_ne_nil, h.ended_eq, h.opened_of_closed, h.issued_eq,
    h.issued_of_orphaned, h.queue_of_drained, fun _ => hqueue⟩
  · rw [hstate]
    exact reflects_failed.mpr ⟨rfl, hdrained, rfl⟩
  · rw [Renders, hstate]
    refine ⟨opened, harrived.free, harrived.opened_eq, fun rest => ?_⟩
    rw [hbytes]
    exact harrived.split_eq rest

/-- The end of the input ends the open segment, and with it the split. -/
theorem Tracks.absorb_done (h : d.Tracks delimiter taken past) (hconnected : d.connected = true)
    (hqueue : d.queue = []) (hopen : d.issued = d.ended + 1) :
    (d.absorb .done).Tracks delimiter (taken ++ [.done]) past := by
  have harriving := h.reflects.connected_iff.mp hconnected
  have hstate := stateOf_append harriving [.done]
  have hbytes : bytesOf (taken ++ [.done]) = bytesOf taken := by
    simp [bytesOf_append harriving, bytesOf]
  obtain ⟨-, -, hfailure⟩ := reflects_arriving.mp (harriving ▸ h.reflects)
  have hrenders := h.renders
  rw [Renders, harriving, hqueue, List.append_nil] at hrenders
  obtain ⟨opened, harrived, hholds⟩ := hrenders
  have hnext : (d.absorb .done).queue = entriesOf d.splitter.finish.2 := by simp [absorb, hqueue]
  -- The last piece is open until its end leaves the queue: the source has ended, the segment not.
  refine ⟨?_, ?_, ?_, h.ended_eq, h.opened_of_closed, h.issued_eq, h.issued_of_orphaned,
    fun _ => .inr ⟨hopen, ?_⟩, ?_⟩
  · rw [hstate]
    exact reflects_done.mpr ⟨rfl, rfl, hfailure⟩
  · rw [Renders, hstate, hnext, joinEntries_append, joinEntries_entriesOf, hholds.joinPieces_finish,
      hbytes]
    have hsplit := harrived.split_eq []
    rw [List.append_nil, List.append_nil] at hsplit
    simp only [stateOf, hsplit]
  · rw [hnext]
    exact fun _ => chunk_ne_nil_of_mem_entriesOf
  · rw [hnext, Splitter.finish, entriesOf]
    simp only [List.flatMap_cons, List.flatMap_nil, List.append_nil, if_true]
    split
    · exact ⟨[], rfl⟩
    · exact ⟨[_], rfl⟩
  · intro h'
    rw [show (d.absorb .done).failure = d.failure from rfl, hfailure] at h'
    cases h'

/-- **Reading the source.** Whatever it gives is taken in, and the queue follows. -/
theorem Tracks.absorb (h : d.Tracks delimiter taken past) (hconnected : d.connected = true)
    (hqueue : d.queue = []) (hopen : d.issued = d.ended + 1) (item : Supply) :
    (d.absorb item).Tracks delimiter (taken ++ [item]) past := by
  cases item with
  | chunk bytes => exact h.absorb_chunk hconnected hqueue bytes
  | failure cause => exact h.absorb_failure hconnected hqueue cause
  | done => exact h.absorb_done hconnected hqueue hopen

/-! ## Taking entries out of the queue -/

theorem Tracks.failure_of_queue (h : d.Tracks delimiter taken past) (hqueue : d.queue ≠ []) :
    d.failure = none := by
  cases hfailure : d.failure with
  | none => rfl
  | some error => exact absurd (h.queue_of_failure (by simp [hfailure])) hqueue

/-- A chunk leaves the queue. -/
theorem Tracks.pop_chunk (h : d.Tracks delimiter taken past) {bytes : Bytes} {rest : List Entry}
    (hqueue : d.queue = .chunk bytes :: rest) (hopen : d.issued = d.ended + 1) :
    Tracks delimiter taken (past ++ [.chunk bytes]) { d with queue := rest } := by
  have hfailure := h.failure_of_queue (by simp [hqueue])
  refine ⟨⟨h.reflects.connected_iff, h.reflects.drained_iff, h.reflects.failure_iff⟩, ?_,
    fun chunk hchunk => ?_, ?_, fun hclosed => ?_, h.issued_eq, h.issued_of_orphaned, ?_, ?_⟩
  · rw [List.append_assoc, List.singleton_append, ← hqueue]
    exact h.renders
  · exact h.chunk_ne_nil chunk (by rw [hqueue]; exact List.mem_cons_of_mem _ hchunk)
  · simpa using h.ended_eq
  · have hclosed : d.issued = d.ended := hclosed
    omega
  · intro hdrained
    rcases h.queue_of_drained hdrained with ⟨-, hempty⟩ | ⟨-, chunks, hchunks⟩
    · rw [hqueue] at hempty
      cases hempty
    · rw [hqueue] at hchunks
      cases chunks with
      | nil => cases hchunks
      | cons first chunks =>
        rw [List.map_cons, List.cons_append, List.cons.injEq] at hchunks
        exact .inr ⟨hopen, chunks, hchunks.2⟩
  · intro h'
    rw [hfailure] at h'
    cases h'

/-- The end of the open segment leaves the queue. -/
theorem Tracks.pop_close (h : d.Tracks delimiter taken past) {rest : List Entry}
    (hqueue : d.queue = .close :: rest) (hopen : d.issued = d.ended + 1) :
    Tracks delimiter taken (past ++ [.close])
      { d with queue := rest, ended := d.ended + 1, orphaned := false } := by
  have hfailure := h.failure_of_queue (by simp [hqueue])
  refine ⟨⟨h.reflects.connected_iff, h.reflects.drained_iff, h.reflects.failure_iff⟩, ?_,
    fun chunk hchunk => ?_, ?_, fun _ => ?_, .inl hopen, nofun, ?_, ?_⟩
  · rw [List.append_assoc, List.singleton_append, ← hqueue]
    exact h.renders
  · exact h.chunk_ne_nil chunk (by rw [hqueue]; exact List.mem_cons_of_mem _ hchunk)
  · simpa using h.ended_eq
  · rw [joinEntries_close]
  · intro hdrained
    rcases h.queue_of_drained hdrained with ⟨-, hempty⟩ | ⟨-, chunks, hchunks⟩
    · rw [hqueue] at hempty
      cases hempty
    · rw [hqueue] at hchunks
      cases chunks with
      | nil =>
        rw [List.map_nil, List.nil_append, List.cons.injEq] at hchunks
        exact .inl ⟨hopen, hchunks.2⟩
      | cons first chunks => cases hchunks
  · intro h'
    rw [hfailure] at h'
    cases h'

/-! ## What every operation keeps -/

/-- A dispenser has gone on to another state: nothing is taken back, and a segment that has ended,
or that a failure cut off, stays as it is. -/
structure Grows (d : Dispenser) (past : List Entry) (d' : Dispenser) (past' : List Entry) :
    Prop where
  ended_le : d.ended ≤ d'.ended
  failure_mono : ∀ error, d.failure = some error → d'.failure = some error
  content_begins : ∀ index, contentAt past index <+: contentAt past' index
  content_eq : ∀ index, index < d.ended ∨ d.failure.isSome = true →
    contentAt past' index = contentAt past index

theorem Grows.refl (d : Dispenser) (past : List Entry) : d.Grows past d past :=
  ⟨Nat.le_refl _, fun _ h => h, fun _ => List.prefix_rfl, fun _ _ => rfl⟩

theorem Grows.trans {d₁ d₂ d₃ : Dispenser} {past₁ past₂ past₃ : List Entry}
    (h : d₁.Grows past₁ d₂ past₂) (h' : d₂.Grows past₂ d₃ past₃) : d₁.Grows past₁ d₃ past₃ where
  ended_le := Nat.le_trans h.ended_le h'.ended_le
  failure_mono := fun error herror => h'.failure_mono error (h.failure_mono error herror)
  content_begins := fun index => (h.content_begins index).trans (h'.content_begins index)
  content_eq := by
    intro index hindex
    rw [h'.content_eq index ?_, h.content_eq index hindex]
    rcases hindex with hlt | hfailure
    · exact .inl (Nat.lt_of_lt_of_le hlt h.ended_le)
    · obtain ⟨error, herror⟩ := Option.isSome_iff_exists.mp hfailure
      exact .inr (Option.isSome_iff_exists.mpr ⟨error, h.failure_mono error herror⟩)

/-- An entry that leaves the queue changes only the open segment. -/
theorem Tracks.grows_pop (h : d.Tracks delimiter taken past) {entry : Entry} {rest : List Entry}
    (hqueue : d.queue = entry :: rest) {d' : Dispenser} (hended : d.ended ≤ d'.ended)
    (hfailure : d'.failure = d.failure) : d.Grows past d' (past ++ [entry]) where
  ended_le := hended
  failure_mono := fun error herror => hfailure.trans herror
  content_begins := contentAt_append past [entry]
  content_eq := by
    intro index hindex
    rcases hindex with hlt | hsome
    · rw [h.ended_eq] at hlt
      exact contentAt_append_of_lt hlt [entry]
    · rw [h.failure_of_queue (by simp [hqueue])] at hsome
      cases hsome

/-- Changes beside the deciding fields count for nothing. -/
theorem grows_of_core {d' : Dispenser} (hcore : d'.core = d.core) : d.Grows past d' past where
  ended_le := Nat.le_of_eq (congrArg Core.ended hcore).symm
  failure_mono := fun _ herror => (congrArg Core.failure hcore).trans herror
  content_begins := fun _ => List.prefix_rfl
  content_eq := fun _ _ => rfl

/-- Reading the source changes none of the segments yet. -/
theorem Tracks.grows_absorb (h : d.Tracks delimiter taken past) (hconnected : d.connected = true)
    (item : Supply) : d.Grows past (d.absorb item) past where
  ended_le := by cases item <;> exact Nat.le_refl _
  failure_mono := by
    intro error herror
    rw [(reflects_arriving.mp (h.reflects.connected_iff.mp hconnected ▸ h.reflects)).2.2] at herror
    cases herror
  content_begins := fun _ => List.prefix_rfl
  content_eq := fun _ _ => rfl

/-! ## Skipping an orphan -/

theorem skipOrphan_chunk {bytes : Bytes} {rest : List Entry}
    (hqueue : d.queue = .chunk bytes :: rest) :
    d.skipOrphan = skipOrphan { d with queue := rest } := by
  simp [skipOrphan, hqueue]

theorem skipOrphan_close {rest : List Entry} (hqueue : d.queue = .close :: rest) :
    d.skipOrphan = { d with queue := rest, ended := d.ended + 1, orphaned := false } := by
  simp [skipOrphan, hqueue]

theorem skipOrphan_nil (hqueue : d.queue = []) : d.skipOrphan = d := by
  rw [skipOrphan, hqueue, List.dropWhile_nil]
  show { d with queue := [] } = d
  rw [← hqueue]

/-- What skipping an orphan does: the end of the segment is found and the orphan is gone, or the
queue is empty. -/
structure Skips (d : Dispenser) (past : List Entry) (d' : Dispenser) (past' : List Entry) :
    Prop where
  grows : d.Grows past d' past'
  source_eq : d'.source = d.source
  issued_eq : d'.issued = d.issued
  failure_eq : d'.failure = d.failure
  outcome : (d'.orphaned = false ∧ d'.ended = d.ended + 1) ∨
    (d'.orphaned = true ∧ d'.ended = d.ended ∧ d'.queue = [])

theorem Tracks.skipOrphan (h : d.Tracks delimiter taken past) (horphaned : d.orphaned = true) :
    ∃ past', d.skipOrphan.Tracks delimiter taken past' ∧ d.Skips past d.skipOrphan past' := by
  induction hqueue : d.queue generalizing d past with
  | nil =>
    rw [skipOrphan_nil hqueue]
    exact ⟨past, h, .refl d past, rfl, rfl, rfl, .inr ⟨horphaned, rfl, hqueue⟩⟩
  | cons entry rest ih =>
    cases entry with
    | chunk bytes =>
      have hgrows : d.Grows past { d with queue := rest } (past ++ [.chunk bytes]) :=
        h.grows_pop hqueue (Nat.le_refl _) rfl
      obtain ⟨past', htracks, hskips⟩ :=
        ih (h.pop_chunk hqueue (h.issued_of_orphaned horphaned)) horphaned rfl
      rw [skipOrphan_chunk hqueue]
      exact ⟨past', htracks, hgrows.trans hskips.grows, hskips.source_eq, hskips.issued_eq,
        hskips.failure_eq, hskips.outcome⟩
    | close =>
      rw [skipOrphan_close hqueue]
      refine ⟨_, h.pop_close hqueue (h.issued_of_orphaned horphaned),
        h.grows_pop hqueue (Nat.le_succ _) rfl, rfl, rfl, rfl, .inl ⟨rfl, rfl⟩⟩

/-! ## Reading the open segment -/

/-- What one poll of the open segment says, and which entry leaves the queue for it. -/
inductive ReadStep (past : List Entry) : InnerPoll × Bool → List Entry → Prop where
  | chunk {bytes : Bytes} (hne : bytes ≠ []) :
      ReadStep past (.chunk bytes, false) (past ++ [.chunk bytes])
  | ended : ReadStep past (.ended, true) (past ++ [.close])
  | pending : ReadStep past (.pending, false) past
  | failed (error : SplitError) : ReadStep past (.failed error, true) past

/-- The open segment answers a poll, after the dispenser has taken in `taken` of its source. -/
structure Answers (delimiter : Bytes) (taken : List Supply) (past : List Entry) (d : Dispenser)
    (answer : InnerPoll × Bool) (past' : List Entry) (d' : Dispenser) : Prop where
  tracks : d'.Tracks delimiter taken past'
  read : ReadStep past answer past'
  grows : d.Grows past d' past'
  issued_eq : d'.issued = d.issued
  orphaned_eq : d'.orphaned = d.orphaned
  failure_of : ∀ error, answer = (.failed error, true) → d'.failure = some error

theorem Answers.congr {answer : InnerPoll × Bool} {past' : List Entry} {d' d'' : Dispenser}
    (h : Answers delimiter taken past d answer past' d') (hcore : d''.core = d'.core) :
    Answers delimiter taken past d answer past' d'' where
  tracks := h.tracks.congr hcore
  read := h.read
  grows := h.grows.trans (grows_of_core hcore)
  issued_eq := (congrArg Core.issued hcore).trans h.issued_eq
  orphaned_eq := (congrArg Core.orphaned hcore).trans h.orphaned_eq
  failure_of := fun error herror => (congrArg Core.failure hcore).trans (h.failure_of error herror)

/-- **One turn of the holder of the open segment.** It has its answer, or nothing is queued and the
source can be read; that the input is used up without an end in the queue does not happen. -/
theorem Tracks.innerTurn (h : d.Tracks delimiter taken past) (hopen : d.issued = d.ended + 1)
    (horphaned : d.orphaned = false) :
    (∃ d' answer past', d.innerTurn = .answers d' answer ∧
      Answers delimiter taken past d answer past' d') ∨
    (d.innerTurn = .reads d ∧ d.queue = [] ∧ d.connected = true) := by
  cases hqueue : d.queue with
  | cons entry rest =>
    cases entry with
    | chunk bytes =>
      have hne := h.chunk_ne_nil bytes (by simp [hqueue])
      refine .inl ⟨_, _, _, ?_, h.pop_chunk hqueue hopen, .chunk hne,
        h.grows_pop hqueue (Nat.le_refl _) rfl, rfl, rfl, nofun⟩
      simp only [Dispenser.innerTurn, hqueue]
    | close =>
      have hcore := core_wakeOuter { d with queue := rest, ended := d.ended + 1 }
      have hended :
          (wakeOuter { d with queue := rest, ended := d.ended + 1 }).ended = d.ended + 1 :=
        congrArg Core.ended hcore
      have htracks := h.pop_close hqueue hopen
      refine .inl ⟨_, _, _, ?_, htracks.congr (hcore.trans ?_), .ended,
        h.grows_pop hqueue (by omega) (congrArg Core.failure hcore), congrArg Core.issued hcore,
        congrArg Core.orphaned hcore, nofun⟩
      · simp only [Dispenser.innerTurn, hqueue]
      · rw [core, core, horphaned]
  | nil =>
    cases hfailure : d.failure with
    | some error =>
      have hcore := core_wakeOuter d
      refine .inl ⟨_, _, _, ?_, h.congr hcore, .failed error, grows_of_core hcore,
        congrArg Core.issued hcore, congrArg Core.orphaned hcore, ?_⟩
      · simp only [Dispenser.innerTurn, hqueue, hfailure]
      · rintro _ ⟨⟩
        exact (congrArg Core.failure hcore).trans hfailure
    | none =>
      have hconnected := h.connected_of_open hfailure hopen hqueue
      exact .inr ⟨by simp only [Dispenser.innerTurn, hqueue, hfailure, hconnected, if_true], rfl,
        hconnected⟩

/-- The holder of the open segment has its answer after some of what the source gives, and leaves
the rest there. -/
theorem Tracks.innerLoop (h : d.Tracks delimiter taken past) (hopen : d.issued = d.ended + 1)
    (horphaned : d.orphaned = false) (items : List Supply) :
    ∃ taken' past', taken' ++ (d.innerLoop items).1.source.queue = taken ++ items ∧
      Answers delimiter taken' past d (d.innerLoop items).2 past' (d.innerLoop items).1 := by
  -- On what the source still gives. Each turn that has no answer takes one item of it in.
  induction items generalizing d taken with
  | nil =>
    rcases h.innerTurn hopen horphaned with
      ⟨d', answer, past', hturn, hanswers⟩ | ⟨hturn, -, -⟩
    · rw [Dispenser.innerLoop, hturn]
      exact ⟨taken, past', rfl, hanswers.congr rfl⟩
    · rw [Dispenser.innerLoop, hturn]
      exact ⟨taken, past, rfl, h.congr rfl, .pending, grows_of_core rfl, rfl, rfl, nofun⟩
  | cons item rest ih =>
    rcases h.innerTurn hopen horphaned with
      ⟨d', answer, past', hturn, hanswers⟩ | ⟨hturn, hqueue, hconnected⟩
    · rw [Dispenser.innerLoop, hturn]
      exact ⟨taken, past', rfl, hanswers.congr rfl⟩
    · rw [Dispenser.innerLoop, hturn]
      have hcore := core_wakeOuter (d.absorb item)
      have hissued : (d.absorb item).wakeOuter.issued = d.issued :=
        (congrArg Core.issued hcore).trans (by cases item <;> rfl)
      have hended : (d.absorb item).wakeOuter.ended = d.ended :=
        (congrArg Core.ended hcore).trans (by cases item <;> rfl)
      have horphaned' : (d.absorb item).wakeOuter.orphaned = d.orphaned :=
        (congrArg Core.orphaned hcore).trans (by cases item <;> rfl)
      obtain ⟨taken', past', hsupplied, hanswers⟩ :=
        ih ((h.absorb hconnected hqueue hopen item).congr hcore) (by omega)
          (horphaned'.trans horphaned)
      have hgrows := (h.grows_absorb hconnected item).trans (grows_of_core hcore)
      refine ⟨taken', past', ?_, hanswers.tracks, hanswers.read, hgrows.trans hanswers.grows,
        hanswers.issued_eq.trans hissued, hanswers.orphaned_eq.trans horphaned',
        hanswers.failure_of⟩
      rw [hsupplied, List.append_assoc, List.singleton_append]

/-! ## Asking for the next segment -/

/-- What the outer side does to the open segment: nothing while somebody holds it, and an orphan may
come to its end. -/
structure Proceeds (d : Dispenser) (past : List Entry) (d' : Dispenser) (past' : List Entry) :
    Prop where
  grows : d.Grows past d' past'
  past_of_held : d.orphaned = false → past' = past
  orphan : (d'.ended = d.ended ∧ d'.orphaned = d.orphaned) ∨
    (d.orphaned = true ∧ d'.orphaned = false ∧ d'.ended = d.ended + 1)

theorem proceeds_of_core {d' : Dispenser} (hcore : d'.core = d.core) : d.Proceeds past d' past where
  grows := grows_of_core hcore
  past_of_held := fun _ => rfl
  orphan := .inl ⟨congrArg Core.ended hcore, congrArg Core.orphaned hcore⟩

theorem Proceeds.trans {d₁ d₂ d₃ : Dispenser} {past₁ past₂ past₃ : List Entry}
    (h : d₁.Proceeds past₁ d₂ past₂) (h' : d₂.Proceeds past₂ d₃ past₃) :
    d₁.Proceeds past₁ d₃ past₃ where
  grows := h.grows.trans h'.grows
  past_of_held := by
    intro hheld
    rcases h.orphan with ⟨-, hsame⟩ | ⟨horphaned, -, -⟩
    · rw [h'.past_of_held (hsame.trans hheld), h.past_of_held hheld]
    · rw [hheld] at horphaned
      cases horphaned
  orphan := by
    rcases h.orphan with ⟨hended, hsame⟩ | ⟨horphaned, hgone, hended⟩
    · rw [← hended, ← hsame]
      exact h'.orphan
    · rcases h'.orphan with ⟨hended', hsame'⟩ | ⟨horphaned', -, -⟩
      · exact .inr ⟨horphaned, hsame'.trans hgone, hended'.trans hended⟩
      · rw [hgone] at horphaned'
        cases horphaned'

theorem Tracks.proceeds_absorb (h : d.Tracks delimiter taken past) (hconnected : d.connected = true)
    (item : Supply) : d.Proceeds past (d.absorb item) past where
  grows := h.grows_absorb hconnected item
  past_of_held := fun _ => rfl
  orphan := .inl (by cases item <;> exact ⟨rfl, rfl⟩)

/-- What the outer side's answer says of the dispenser, which has handed out `issued` segments
before. A segment is handed out when no other is open, and begins unread. -/
inductive OuterStep (issued : Nat) (past : List Entry) : OuterPoll → Dispenser → Prop where
  | segment {d' : Dispenser} (hissued : d'.issued = issued + 1) (hended : d'.ended = issued)
      (hheld : d'.orphaned = false) (hcontent : contentAt past issued = []) :
      OuterStep issued past (.segment ⟨issued, false⟩) d'
  | failed {d' : Dispenser} {error : SplitError} (hissued : d'.issued = issued)
      (hfailure : d'.failure = some error) : OuterStep issued past (.failed error) d'
  | pending {d' : Dispenser} (hissued : d'.issued = issued) (hopen : d'.issued = d'.ended + 1) :
      OuterStep issued past .pending d'
  | ended {d' : Dispenser} (hissued : d'.issued = issued)
      (hover : d'.failure.isSome = true ∨ (d'.drained = true ∧ d'.issued = d'.ended)) :
      OuterStep issued past .ended d'

theorem OuterStep.congr {issued : Nat} {answer : OuterPoll} (h : OuterStep issued past answer d)
    {d' : Dispenser} (hcore : d'.core = d.core) : OuterStep issued past answer d' := by
  simp only [core, Core.mk.injEq] at hcore
  obtain ⟨-, -, -, hdrained, hfailure, hissued, hended, horphaned⟩ := hcore
  cases h with
  | segment h₁ h₂ h₃ h₄ =>
    exact .segment (hissued.trans h₁) (hended.trans h₂) (horphaned.trans h₃) h₄
  | failed h₁ h₂ => exact .failed (hissued.trans h₁) (hfailure.trans h₂)
  | pending h₁ h₂ => exact .pending (hissued.trans h₁) (by omega)
  | ended h₁ h₂ => exact .ended (hissued.trans h₁) (by rwa [hfailure, hdrained, hissued, hended])

/-- The outer side has an answer. -/
structure Offers (delimiter : Bytes) (taken : List Supply) (past : List Entry) (d : Dispenser)
    (answer : OuterPoll) (past' : List Entry) (d' : Dispenser) : Prop where
  tracks : d'.Tracks delimiter taken past'
  proceeds : d.Proceeds past d' past'
  step : OuterStep d.issued past' answer d'

theorem Offers.congr {answer : OuterPoll} {past' : List Entry} {d' d'' : Dispenser}
    (h : Offers delimiter taken past d answer past' d') (hcore : d''.core = d'.core) :
    Offers delimiter taken past d answer past' d'' where
  tracks := h.tracks.congr hcore
  proceeds := h.proceeds.trans (proceeds_of_core hcore)
  step := h.step.congr hcore

/-- With no segment open, the next one is handed out, unless the input is used up. -/
theorem Tracks.issue (h : d.Tracks delimiter taken past) (hfailure : d.failure = none)
    (hclosed : d.issued = d.ended) :
    Offers delimiter taken past d d.issue.2 past d.issue.1 := by
  have hnone : d.failure.isSome = true → d.queue = [] := by simp [hfailure]
  unfold Dispenser.issue
  split
  · next hover =>
    rw [Bool.and_eq_true] at hover
    exact ⟨h, proceeds_of_core rfl, .ended rfl (.inr ⟨hover.1, hclosed⟩)⟩
  · next hmore =>
    have hheld : d.orphaned = false := by
      cases horphaned : d.orphaned with
      | false => rfl
      | true =>
        have hopen := h.issued_of_orphaned horphaned
        omega
    have hcontent : contentAt past d.issued = [] := by
      rw [hclosed, h.ended_eq, contentAt_endsIn, h.opened_of_closed hclosed]
    refine ⟨⟨⟨h.reflects.connected_iff, h.reflects.drained_iff, h.reflects.failure_iff⟩, h.renders,
      h.chunk_ne_nil, h.ended_eq, fun h' => ?_, .inr (by simp [hclosed]),
      fun _ => by simp [hclosed], fun hdrained => ?_, hnone⟩, ⟨⟨Nat.le_refl _,
      fun _ herror => herror, fun _ => List.prefix_rfl, fun _ _ => rfl⟩, fun _ => rfl,
      .inl ⟨rfl, rfl⟩⟩, .segment rfl hclosed.symm hheld hcontent⟩
    · have h' : d.issued + 1 = d.ended := h'
      omega
    · rcases h.queue_of_drained hdrained with ⟨-, hempty⟩ | ⟨hopen, -⟩
      · simp [show d.drained = true from hdrained, hempty] at hmore
      · omega

/-- The outer side begins with the orphan, if there is one. -/
theorem Tracks.skipIfOrphaned (h : d.Tracks delimiter taken past) {left : Dispenser}
    (hleft : left = if d.issued != d.ended && d.orphaned then d.skipOrphan else d) :
    ∃ past', left.Tracks delimiter taken past' ∧ d.Proceeds past left past' ∧
      left.issued = d.issued ∧ left.failure = d.failure ∧
      (left.orphaned = true → left.queue = []) := by
  by_cases horphaned : d.orphaned = true
  · have hissued := h.issued_of_orphaned horphaned
    have hcond : (d.issued != d.ended && d.orphaned) = true := by simp [horphaned, hissued]
    rw [hcond, if_pos rfl] at hleft
    subst hleft
    obtain ⟨past', htracks, hskips⟩ := h.skipOrphan horphaned
    refine ⟨past', htracks, ⟨hskips.grows, by simp [horphaned], ?_⟩, hskips.issued_eq,
      hskips.failure_eq, fun horphaned' => ?_⟩
    · rcases hskips.outcome with ⟨hgone, hended⟩ | ⟨hstill, hended, -⟩
      · exact .inr ⟨horphaned, hgone, hended⟩
      · exact .inl ⟨hended, hstill.trans horphaned.symm⟩
    · rcases hskips.outcome with ⟨hgone, -⟩ | ⟨-, -, hempty⟩
      · rw [hgone] at horphaned'
        cases horphaned'
      · exact hempty
  · have hcond : (d.issued != d.ended && d.orphaned) = false := by simp [horphaned]
    rw [hcond, if_neg Bool.false_ne_true] at hleft
    subst hleft
    exact ⟨past, h, proceeds_of_core rfl, rfl, rfl, fun h' => absurd h' horphaned⟩

/-- **One turn of the outer side.** It has its answer, or an open segment has nothing queued and the
source can be read; that the input is used up then does not happen. -/
theorem Tracks.outerTurn (h : d.Tracks delimiter taken past) :
    (∃ d' answer past', d.outerTurn = .answers d' answer ∧
      Offers delimiter taken past d answer past' d') ∨
    (∃ d' past', d.outerTurn = .reads d' ∧ d'.Tracks delimiter taken past' ∧
      d.Proceeds past d' past' ∧ d'.issued = d.issued ∧ d'.issued = d'.ended + 1 ∧
      d'.queue = [] ∧ d'.connected = true) := by
  cases hfailure : d.failure with
  | some error =>
    -- A failure is told once. Whoever asks again is told that there is nothing more.
    by_cases htold : d.failureTold = true
    · refine .inl ⟨d, .ended, past, ?_, h, proceeds_of_core rfl,
        .ended rfl (.inl (by simp [hfailure]))⟩
      simp only [Dispenser.outerTurn, hfailure, htold, if_true]
    · refine .inl ⟨{ d with failureTold := true }, .failed error, past, ?_, h.congr rfl,
        proceeds_of_core rfl, .failed rfl hfailure⟩
      simp only [Dispenser.outerTurn, hfailure, htold]
      rfl
  | none =>
    obtain ⟨past', htracks, hproceeds, hissued, hsame, hempty⟩ := h.skipIfOrphaned rfl
    generalize hleft :
      (if d.issued != d.ended && d.orphaned then d.skipOrphan else d) = left at *
    by_cases hclosed : left.issued = left.ended
    · have hoffers := htracks.issue (hsame.trans hfailure) hclosed
      refine .inl ⟨_, _, past', ?_, hoffers.tracks, hproceeds.trans hoffers.proceeds,
        hissued ▸ hoffers.step⟩
      simp only [Dispenser.outerTurn, hfailure, hleft, hclosed, if_true]
    · have hopen : left.issued = left.ended + 1 := htracks.issued_eq.resolve_left hclosed
      -- Entries are left to whoever holds the open segment. Nobody holds an orphan, and the skip
      -- has emptied its queue.
      by_cases hqueued : left.orphaned = false ∧ left.queue ≠ []
      · refine .inl ⟨left, .pending, past', ?_, htracks, hproceeds, .pending hissued hopen⟩
        simp only [Dispenser.outerTurn, hfailure, hleft]
        simp [hclosed, hqueued]
      · have hqueue : left.queue = [] := by
          cases horphaned : left.orphaned with
          | true => exact hempty horphaned
          | false => simpa [horphaned] using hqueued
        have hconnected := htracks.connected_of_open (hsame.trans hfailure) hopen hqueue
        refine .inr ⟨left, past', ?_, htracks, hproceeds, hissued, hopen, hqueue, hconnected⟩
        simp only [Dispenser.outerTurn, hfailure, hleft]
        simp [hclosed, hqueue, hconnected]

/-- The outer side has its answer after some of what the source gives, and leaves the rest there. -/
theorem Tracks.outerLoop (h : d.Tracks delimiter taken past) (items : List Supply) :
    ∃ taken' past', taken' ++ (d.outerLoop items).1.source.queue = taken ++ items ∧
      Offers delimiter taken' past d (d.outerLoop items).2 past' (d.outerLoop items).1 := by
  -- On what the source still gives, as for the holder. A turn can also skip entries of an orphan,
  -- so that `past` changes as well.
  induction items generalizing d taken past with
  | nil =>
    rcases h.outerTurn with ⟨d', answer, past', hturn, hoffers⟩ |
      ⟨d', past', hturn, htracks, hproceeds, hissued, hopen, -, -⟩
    · rw [Dispenser.outerLoop, hturn]
      exact ⟨taken, past', rfl, hoffers.congr rfl⟩
    · rw [Dispenser.outerLoop, hturn]
      exact ⟨taken, past', rfl, htracks.congr rfl, hproceeds.trans (proceeds_of_core rfl),
        .pending hissued hopen⟩
  | cons item rest ih =>
    rcases h.outerTurn with ⟨d', answer, past', hturn, hoffers⟩ |
      ⟨d', past', hturn, htracks, hproceeds, hissued, hopen, hqueue, hconnected⟩
    · rw [Dispenser.outerLoop, hturn]
      exact ⟨taken, past', rfl, hoffers.congr rfl⟩
    · rw [Dispenser.outerLoop, hturn]
      have hcore := core_wakeInner (d'.absorb item)
      have hissued' : (d'.absorb item).wakeInner.issued = d'.issued :=
        (congrArg Core.issued hcore).trans (by cases item <;> rfl)
      have habsorbed : d'.Proceeds past' (d'.absorb item).wakeInner past' :=
        (htracks.proceeds_absorb hconnected item).trans (proceeds_of_core hcore)
      obtain ⟨taken', past'', hsupplied, hoffers⟩ :=
        ih ((htracks.absorb hconnected hqueue hopen item).congr hcore)
      refine ⟨taken', past'', ?_, hoffers.tracks,
        (hproceeds.trans habsorbed).trans hoffers.proceeds, ?_⟩
      · rw [hsupplied, List.append_assoc, List.singleton_append]
      · rw [← hissued, ← hissued']
        exact hoffers.step

/-- **Asking for the next segment.** -/
theorem Tracks.pollOuter (h : d.Tracks delimiter taken past) (caller : Caller) :
    ∃ taken' past', taken' ++ (d.pollOuter caller).1.source.queue = taken ++ d.source.queue ∧
      Offers delimiter taken' past d (d.pollOuter caller).2 past' (d.pollOuter caller).1 := by
  have hwaiting : d.Proceeds past { d with outerWaiter := some caller } past := proceeds_of_core rfl
  obtain ⟨taken', past', hsupplied, hoffers⟩ :=
    Tracks.outerLoop (d := { d with outerWaiter := some caller }) (h.congr rfl) d.source.queue
  exact ⟨taken', past', hsupplied, hoffers.tracks, hwaiting.trans hoffers.proceeds, hoffers.step⟩

end

end Dispenser

end Switchboard
