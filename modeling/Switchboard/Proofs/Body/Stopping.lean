import Mathlib.Order.Bounds.Basic
import Mathlib.Order.Nat
import Switchboard.Proofs.Segment.ChunkBound
set_option autoImplicit false

/-! # When skimming stops

Skimming stops at the first poll after which the data has reached the limit, or which gave no frame
(`Body.StopsAfter`). `Body.Skims` is all that there is to say of it: how many polls are made, what
it comes to and what is left of the producer. It holds of every producer (`Body.skims_iff`), and so
of scripted bodies (`Body.skim_eq_some_iff`), of the bodies made from segments
(`Dispenser.exists_skims`) and of responses that are cancelled (`HeldReply.cancel_of_skims`).

A cancelled response whose body fails counts as nothing read, however much was read before:
`HeldReply.cancel_counts_iff` says when the count is that of the bytes that were read. -/

namespace Switchboard

namespace Body

/-! ## Stopping -/

section

variable {σ : Type}

/-- The first so many polls are enough: the data has reached the limit, or the last of them gave no
frame. -/
def StopsAfter (poll : σ → Polled × σ) (limit : Nat) (producer : σ) : Nat → Prop
  | 0 => limit = 0
  | polls + 1 =>
    limit ≤ given poll (polls + 1) producer ∨ ¬ (poll (after poll polls producer)).1.IsFrame

/-- What reading comes to with so many polls: the error of the last one, if it failed, and the
number of bytes of data otherwise. -/
def resultAfter (poll : σ → Polled × σ) (producer : σ) : Nat → Except BodyError Nat
  | 0 => .ok 0
  | polls + 1 =>
    match (poll (after poll polls producer)).1 with
    | .failed e => .error e
    | _ => .ok (given poll (polls + 1) producer)

/-- **Skimming makes as few polls as are enough**, comes to what these come to, and leaves the
producer as it is after them. -/
def Skims (poll : σ → Polled × σ) (limit : Nat) (producer : σ) (result : Except BodyError Nat)
    (rest : σ) : Prop :=
  ∃ polls, IsLeast {polls | StopsAfter poll limit producer polls} polls ∧
    result = resultAfter poll producer polls ∧ rest = after poll polls producer

end

section

variable {σ : Type} {poll : σ → Polled × σ} {limit fuel size polls : Nat} {producer rest : σ}
  {result : Except BodyError Nat}

/-- After a frame, as many polls are enough as for what the frame leaves of the limit. -/
theorem stopsAfter_succ (hframe : (poll producer).1.IsFrame) :
    StopsAfter poll limit producer (polls + 1) ↔
      StopsAfter poll (limit - (poll producer).1.size) (poll producer).2 polls := by
  cases polls with
  | zero =>
    simp only [StopsAfter, given, after, hframe, not_true, or_false, Nat.add_zero]
    omega
  | succ polls =>
    simp only [StopsAfter, given, after]
    rw [Nat.sub_le_iff_le_add']

theorem isLeast_zero (h : IsLeast {polls | StopsAfter poll 0 producer polls} polls) : polls = 0 :=
  h.unique ⟨rfl, fun _ _ => Nat.zero_le _⟩

theorem isLeast_succ (hlimit : 0 < limit) (hframe : (poll producer).1.IsFrame) :
    IsLeast {polls | StopsAfter poll limit producer polls} (polls + 1) ↔
      IsLeast {polls | StopsAfter poll (limit - (poll producer).1.size) (poll producer).2 polls}
        polls := by
  constructor
  · rintro ⟨hstops, hleast⟩
    refine ⟨(stopsAfter_succ hframe).mp hstops, fun fewer hfewer => ?_⟩
    exact Nat.le_of_succ_le_succ (hleast ((stopsAfter_succ hframe).mpr hfewer))
  · rintro ⟨hstops, hleast⟩
    refine ⟨(stopsAfter_succ hframe).mpr hstops, fun fewer hfewer => ?_⟩
    cases fewer with
    | zero => exact absurd hfewer (Nat.ne_of_gt hlimit)
    | succ fewer => exact Nat.succ_le_succ (hleast ((stopsAfter_succ hframe).mp hfewer))

/-- If a number of polls is enough, there is a least one. -/
theorem exists_isLeast (h : StopsAfter poll limit producer polls) :
    ∃ polls, IsLeast {polls | StopsAfter poll limit producer polls} polls := by
  classical
  exact ⟨_, Nat.isLeast_find ⟨polls, h⟩⟩

/-- The poll that gives no frame is the last one. -/
theorem isLeast_one (hlimit : 0 < limit) (hframe : ¬ (poll producer).1.IsFrame) :
    IsLeast {polls | StopsAfter poll limit producer polls} 1 := by
  refine ⟨.inr hframe, fun fewer hfewer => ?_⟩
  cases fewer with
  | zero => exact absurd hfewer (Nat.ne_of_gt hlimit)
  | succ fewer => exact Nat.succ_le_succ (Nat.zero_le fewer)

/-- A frame adds its data to what the rest comes to. -/
theorem resultAfter_succ (hframe : (poll producer).1.IsFrame) :
    resultAfter poll producer (polls + 1) =
      (resultAfter poll (poll producer).2 polls).map ((poll producer).1.size + ·) := by
  cases polls with
  | zero =>
    simp only [resultAfter, after, given, Except.map]
    cases hpoll : (poll producer).1 with
    | frame frame => rfl
    | failed error => rw [hpoll] at hframe; exact hframe.elim
    | pending => rfl
    | ended => rfl
  | succ polls =>
    simp only [resultAfter, after, given]
    split <;> rfl

/-! ## Skimming any producer -/

theorem skimWithin_of_limit (hlimit : limit ≤ size) :
    skimWithin poll limit fuel size producer = some (.ok size, producer) := by
  unfold skimWithin
  exact if_pos hlimit

theorem skimWithin_of_frame (hlimit : size < limit) (hframe : (poll producer).1.IsFrame) :
    skimWithin poll limit (fuel + 1) size producer =
      skimWithin poll limit fuel (size + (poll producer).1.size) (poll producer).2 := by
  rw [skimWithin, if_neg (Nat.not_le.mpr hlimit)]
  generalize poll producer = answer at hframe ⊢
  obtain ⟨polled, rest⟩ := answer
  cases polled with
  | frame frame => cases frame <;> rfl
  | failed error => exact hframe.elim
  | pending => exact hframe.elim
  | ended => exact hframe.elim

theorem skimWithin_of_last (hlimit : size < limit) (hframe : ¬ (poll producer).1.IsFrame) :
    skimWithin poll limit (fuel + 1) size producer =
      some ((resultAfter poll producer 1).map (size + ·), (poll producer).2) := by
  rw [skimWithin, if_neg (Nat.not_le.mpr hlimit)]
  simp only [resultAfter, after, given]
  generalize poll producer = answer at hframe ⊢
  obtain ⟨polled, rest⟩ := answer
  cases polled with
  | frame frame => exact absurd trivial hframe
  | failed error => rfl
  | pending => rfl
  | ended => rfl

/-- Fuel for as many polls as are enough. -/
theorem skimWithin_of_isLeast
    (h : IsLeast {polls | StopsAfter poll (limit - size) producer polls} polls)
    (hfuel : polls ≤ fuel) :
    skimWithin poll limit fuel size producer =
      some ((resultAfter poll producer polls).map (size + ·), after poll polls producer) := by
  induction polls generalizing fuel size producer with
  | zero =>
    have hlimit : limit - size = 0 := h.1
    rw [skimWithin_of_limit (by omega)]
    rfl
  | succ polls ih =>
    have hlimit : size < limit := by
      by_contra hlimit
      rw [Nat.sub_eq_zero_of_le (by omega)] at h
      exact absurd (isLeast_zero h) (by omega)
    obtain ⟨fuel, rfl⟩ := Nat.exists_eq_add_one_of_ne_zero (by omega : fuel ≠ 0)
    by_cases hframe : (poll producer).1.IsFrame
    · rw [isLeast_succ (by omega) hframe, Nat.sub_sub] at h
      rw [skimWithin_of_frame hlimit hframe, ih h (by omega), resultAfter_succ hframe]
      cases resultAfter poll (poll producer).2 polls with
      | error e => rfl
      | ok count => simp only [Except.map, after, Nat.add_assoc]
    · obtain rfl : polls = 0 := Nat.succ.inj (h.unique (isLeast_one (by omega) hframe))
      rw [skimWithin_of_last hlimit hframe]
      rfl

/-- Where no number of polls within the fuel is enough, the fuel runs out. -/
theorem skimWithin_of_not_stops
    (h : ∀ polls ≤ fuel, ¬ StopsAfter poll (limit - size) producer polls) :
    skimWithin poll limit fuel size producer = none := by
  have hlimit : 0 < limit - size := Nat.pos_of_ne_zero (h 0 (Nat.zero_le fuel))
  induction fuel generalizing size producer with
  | zero => exact skimWithin_zero.mpr (by omega)
  | succ fuel ih =>
    have hone : ¬ StopsAfter poll (limit - size) producer 1 := h 1 (by omega)
    simp only [StopsAfter, given, after, not_or, Classical.not_not] at hone
    have hrest : ∀ polls ≤ fuel,
        ¬ StopsAfter poll (limit - (size + (poll producer).1.size)) (poll producer).2 polls := by
      intro polls hpolls hstops
      rw [← Nat.sub_sub, ← stopsAfter_succ hone.2] at hstops
      exact h (polls + 1) (by omega) hstops
    refine skimWithin_succ.mpr ⟨by omega, hone.2, ih hrest ?_⟩
    exact Nat.pos_of_ne_zero (hrest 0 (Nat.zero_le fuel))

/-- **What skimming comes to**, for every producer, given fuel for it. -/
theorem skims_iff : (∃ fuel, skimWithin poll limit fuel 0 producer = some (result, rest)) ↔
    Skims poll limit producer result rest := by
  have hmap (result : Except BodyError Nat) : result.map (0 + ·) = result := by
    cases result <;> simp [Except.map]
  constructor
  · rintro ⟨fuel, hskim⟩
    have hstops : ∃ polls ≤ fuel, StopsAfter poll limit producer polls := by
      by_contra hnever
      rw [skimWithin_of_not_stops fun polls hle hstops => hnever ⟨polls, hle, hstops⟩] at hskim
      cases hskim
    obtain ⟨enough, hle, henough⟩ := hstops
    obtain ⟨polls, hleast⟩ := exists_isLeast henough
    rw [skimWithin_of_isLeast hleast (Nat.le_trans (hleast.2 henough) hle), hmap] at hskim
    cases hskim
    exact ⟨polls, hleast, rfl, rfl⟩
  · rintro ⟨polls, hleast, rfl, rfl⟩
    exact ⟨polls, by rw [skimWithin_of_isLeast hleast (Nat.le_refl polls), hmap]⟩

theorem Skims.unique {result' : Except BodyError Nat} {rest' : σ}
    (h : Skims poll limit producer result rest) (h' : Skims poll limit producer result' rest') :
    result = result' ∧ rest = rest' := by
  obtain ⟨polls, hleast, rfl, rfl⟩ := h
  obtain ⟨polls', hleast', rfl, rfl⟩ := h'
  rw [hleast.unique hleast']
  exact ⟨rfl, rfl⟩

/-- Reading that does not end with an error comes to the number of bytes that were read. -/
theorem resultAfter_eq (poll : σ → Polled × σ) (producer : σ) (polls : Nat) :
    resultAfter poll producer polls = .ok (given poll polls producer) ∨
      ∃ e, resultAfter poll producer polls = .error e := by
  cases polls with
  | zero => exact .inl rfl
  | succ polls =>
    rw [resultAfter]
    split
    · next e _ => exact .inr ⟨e, rfl⟩
    · exact .inl rfl

theorem given_of_resultAfter {count : Nat} (h : resultAfter poll producer polls = .ok count) :
    given poll polls producer = count := by
  obtain hok | ⟨e, herror⟩ := resultAfter_eq poll producer polls
  · rw [hok] at h
    exact Except.ok.inj h
  · rw [herror] at h
    cases h

theorem given_succ (poll : σ → Polled × σ) (polls : Nat) (producer : σ) :
    given poll (polls + 1) producer =
      given poll polls producer + (poll (after poll polls producer)).1.size := by
  induction polls generalizing producer with
  | zero => simp only [given, after, Nat.add_zero, Nat.zero_add]
  | succ polls ih =>
    rw [given, ih, given, after, Nat.add_assoc]

/-- With fewer polls than are enough, the data stays below the limit. -/
theorem given_lt_of_isLeast {fewer : Nat}
    (h : IsLeast {polls | StopsAfter poll limit producer polls} polls) (hfewer : fewer < polls) :
    given poll fewer producer < limit := by
  by_contra hlimit
  have hstops : StopsAfter poll limit producer fewer := by
    cases fewer with
    | zero => exact Nat.eq_zero_of_le_zero (Nat.not_lt.mp hlimit)
    | succ fewer => exact .inl (Nat.not_lt.mp hlimit)
  exact absurd (h.2 hstops) (Nat.not_le.mpr hfewer)

/-- What goes beyond the limit is less than the last frame. -/
theorem exceeding_lt (h : IsLeast {polls | StopsAfter poll limit producer polls} polls)
    (hexceeds : limit < given poll polls producer) :
    ∃ before, polls = before + 1 ∧
      given poll polls producer - limit < (poll (after poll before producer)).1.size := by
  cases polls with
  | zero => exact absurd hexceeds (Nat.not_lt_zero limit)
  | succ before =>
    have hbefore := given_lt_of_isLeast h (Nat.lt_succ_self before)
    rw [given_succ] at hexceeds ⊢
    exact ⟨before, rfl, by omega⟩

/-- A producer that runs down with each frame is skimmed with fuel for all that it has. -/
theorem skimWithin_of_measure (measure : σ → Nat)
    (hmeasure : ∀ producer, (poll producer).1.IsFrame →
      measure (poll producer).2 < measure producer)
    (hfuel : measure producer < fuel) : skimWithin poll limit fuel size producer ≠ none := by
  intro hnone
  induction fuel generalizing size producer with
  | zero => exact absurd hfuel (Nat.not_lt_zero _)
  | succ fuel ih =>
    obtain ⟨-, hframe, hrest⟩ := skimWithin_succ.mp hnone
    have hless := hmeasure producer hframe
    exact ih (by omega) hrest

end

/-! ## Scripted bodies -/

/-- **Skimming a scripted body**; the bound that it puts on the polls is no restriction. -/
theorem skim_eq_some_iff {opened : List String} {limit : Nat} {body : Body}
    {result : Except BodyError Nat} {read : Noted} :
    body.skim opened limit = some (result, read) ↔
      Skims (Noted.poll opened) limit ⟨[], body⟩ result read := by
  rw [← skims_iff]
  constructor
  · intro h
    exact ⟨_, h⟩
  · rintro ⟨fuel, h⟩
    have hreturns : body.skim opened limit ≠ none := by
      rw [Ne, skim_none_iff_keepsBusy, ← skimWithin_none_iff]
      intro hnone
      rw [hnone fuel] at h
      cases h
    obtain ⟨⟨result', read'⟩, h'⟩ := Option.ne_none_iff_exists'.mp hreturns
    obtain ⟨rfl, rfl⟩ := (skims_iff.mp ⟨fuel, h⟩).unique (skims_iff.mp ⟨_, h'⟩)
    exact h'

end Body

/-! ## Segments -/

/-- **Skimming a segment**, which is dropped then as it is left. -/
theorem Dispenser.exists_skims (d : Dispenser) (s : Segment) (limit : Nat) :
    ∃ result state, Body.Skims (pollAsBody .nobody) limit (d, s) result state ∧
      d.skimSegment s limit = (state.1.dropSegment state.2, result) := by
  have hreturns : Body.skimWithin (pollAsBody .nobody) limit (d.chunkBound + 1) 0 (d, s) ≠ none :=
    Body.skimWithin_of_measure (fun state => state.1.chunkBound)
      (fun _ hframe => chunkBound_pollAsBody hframe) (Nat.lt_succ_self d.chunkBound)
  obtain ⟨⟨result, state⟩, hskim⟩ := Option.ne_none_iff_exists'.mp hreturns
  refine ⟨result, state, Body.skims_iff.mp ⟨_, hskim⟩, ?_⟩
  rw [skimSegment, hskim]

/-! ## Cancelled responses -/

namespace HeldReply

section

variable {opened : List String} {held : HeldReply}

/-- What becomes of a cancelled response whose body was skimmed. -/
def cancellation (held : HeldReply) (read : Body.Noted) : Except BodyError Nat → Cancellation
  | .ok size => ⟨read.notes ++ [.log (.cancelled held.head.status size)], some size⟩
  | .error e => ⟨read.notes ++ [.log (.cancelFailed held.head.status e.message)], some 0⟩

theorem cancel_of_skims {result : Except BodyError Nat} {read : Body.Noted}
    (h : Body.Skims (Body.Noted.poll opened) skimLimit ⟨[], held.body⟩ result read) :
    held.cancel opened = held.cancellation read result := by
  rw [cancel, Body.skim_eq_some_iff.mpr h]
  cases result <;> rfl

/-- A response whose cancelling is over was skimmed. -/
theorem exists_skims_of_size {size : Nat} (h : (held.cancel opened).size = some size) :
    ∃ result read,
      Body.Skims (Body.Noted.poll opened) skimLimit ⟨[], held.body⟩ result read := by
  cases hskim : held.body.skim opened skimLimit with
  | none =>
    rw [cancel, hskim] at h
    cases h
  | some answer => exact ⟨answer.1, answer.2, Body.skim_eq_some_iff.mp hskim⟩

end

end HeldReply

/-! ## Stopping at the first occasion -/

/-- **Skimming stops at the first occasion.** Whenever it returns it has made as few polls as are
enough, from the first one on: up to the first after which the data has reached the limit, or that
is pending, an error or the end. It returns the error of that poll, and otherwise the number of
bytes that were read, which is beyond the limit by less than the last frame. With no limit at all
nothing is polled. So it is for every producer, for a scripted body, for a segment and for the body
of a response that is cancelled, of which less than 64 KiB are read before the last frame. -/
theorem Body.skimming_stops_first {σ : Type} (poll : σ → Polled × σ) (limit : Nat) (producer : σ)
    (opened : List String) (body : Body) (d : Dispenser) (s : Segment) (held : HeldReply) :
    (∀ result rest, (∃ fuel, skimWithin poll limit fuel 0 producer = some (result, rest)) ↔
      Skims poll limit producer result rest) ∧
    (∀ polls, IsLeast {polls | StopsAfter poll limit producer polls} polls →
      (resultAfter poll producer polls = .ok (given poll polls producer) ∨
        ∃ before e, polls = before + 1 ∧ (poll (after poll before producer)).1 = .failed e ∧
          resultAfter poll producer polls = .error e) ∧
      (limit < given poll polls producer → ∃ before, polls = before + 1 ∧
        given poll polls producer - limit < (poll (after poll before producer)).1.size)) ∧
    (∀ fuel, skimWithin poll 0 fuel 0 producer = some (.ok 0, producer)) ∧
    (∀ result read, body.skim opened limit = some (result, read) ↔
      Skims (Noted.poll opened) limit ⟨[], body⟩ result read) ∧
    (∃ result state, Skims (Dispenser.pollAsBody .nobody) limit (d, s) result state ∧
      d.skimSegment s limit = (state.1.dropSegment state.2, result)) ∧
    (∀ size, (held.cancel opened).size = some size →
      ∃ polls result, held.cancel opened =
          held.cancellation (after (Noted.poll opened) polls ⟨[], held.body⟩) result ∧
        IsLeast {polls | StopsAfter (Noted.poll opened) (64 * 1024) ⟨[], held.body⟩ polls} polls ∧
        ∀ fewer < polls, given (Noted.poll opened) fewer ⟨[], held.body⟩ < 64 * 1024) := by
  refine ⟨fun result rest => skims_iff, fun polls hleast => ⟨?_, exceeding_lt hleast⟩,
    fun fuel => skimWithin_of_limit (Nat.le_refl 0), fun result read => skim_eq_some_iff,
    d.exists_skims s limit, fun size hsize => ?_⟩
  · cases polls with
    | zero => exact .inl rfl
    | succ before =>
      rw [resultAfter]
      split
      · next e hfailed => exact .inr ⟨before, e, rfl, hfailed, rfl⟩
      · exact .inl rfl
  · obtain ⟨result, read, hskims⟩ := HeldReply.exists_skims_of_size hsize
    have hcancel := HeldReply.cancel_of_skims hskims
    obtain ⟨polls, hleast, rfl, rfl⟩ := hskims
    exact ⟨polls, _, hcancel, hleast, fun fewer hfewer => given_lt_of_isLeast hleast hfewer⟩

/-- Two frames are read where the first leaves the reader below the limit of five bytes; the last
goes beyond it by two bytes. A response with this body is cancelled with all of it read. -/
theorem Body.skimming_stops_first_beyond :
    let body := Body.stream
      ⟨"body", false, [.frame (.data [1, 2, 3]), .frame (.data [4, 5, 6, 7])], none⟩
    let held : HeldReply := ⟨⟨200, .empty⟩, body⟩
    (∃ polls before, IsLeast {polls | StopsAfter (Noted.poll []) 5 ⟨[], body⟩ polls} polls ∧
      given (Noted.poll []) polls ⟨[], body⟩ = 7 ∧ polls = before + 1 ∧
      7 - 5 < (Noted.poll [] (after (Noted.poll []) before ⟨[], body⟩)).1.size) ∧
    (held.cancel []).size = some 7 ∧
    ∃ polls, ∀ fewer < polls, given (Noted.poll []) fewer ⟨[], body⟩ < 64 * 1024 := by
  intro body held
  obtain ⟨-, hleast, -, hskim, -, hcancel⟩ := skimming_stops_first (Noted.poll []) 5 ⟨[], body⟩ []
    body (.ofSplitter ⟨[0], .ofCapacity 1, #[]⟩ []) ⟨0, false⟩ held
  have hread : body.skim [] 5 = some (.ok 7, ⟨[.produced "body" 4, .produced "body" 3],
      .stream ⟨"body", false, [], none⟩⟩) := rfl
  have hsize : (held.cancel []).size = some 7 := rfl
  obtain ⟨polls, hpolls, hresult, -⟩ := (hskim _ _).mp hread
  have hgiven := given_of_resultAfter hresult.symm
  obtain ⟨before, hbefore, hless⟩ := (hleast polls hpolls).2 (by rw [hgiven]; decide)
  rw [hgiven] at hless
  obtain ⟨enough, _, -, -, hfewer⟩ := hcancel 7 hsize
  exact ⟨⟨polls, before, hpolls, hgiven, hbefore, hless⟩, hsize, enough, hfewer⟩

/-! ## The count of a cancelled response -/

/-- **When the count is that of the bytes that were read.** Cancelling counts the bytes of all polls
that it makes, unless the last of them fails: then it counts none. So the count is right exactly if
the body did not fail, or failed before it gave any data. -/
theorem HeldReply.cancel_counts_iff (opened : List String) (held : HeldReply) :
    (∀ size, (held.cancel opened).size = some size ↔
      ∃ result read,
        Body.Skims (Body.Noted.poll opened) skimLimit ⟨[], held.body⟩ result read ∧
          size = result.toOption.getD 0) ∧
    ∀ polls, IsLeast {polls |
        Body.StopsAfter (Body.Noted.poll opened) skimLimit ⟨[], held.body⟩ polls} polls →
      ((held.cancel opened).size =
          some (Body.given (Body.Noted.poll opened) polls ⟨[], held.body⟩) ↔
        (∀ e, Body.resultAfter (Body.Noted.poll opened) ⟨[], held.body⟩ polls ≠ .error e) ∨
          Body.given (Body.Noted.poll opened) polls ⟨[], held.body⟩ = 0) := by
  have hsize {result : Except BodyError Nat} {read : Body.Noted}
      (h : Body.Skims (Body.Noted.poll opened) skimLimit ⟨[], held.body⟩ result read) :
      (held.cancel opened).size = some (result.toOption.getD 0) := by
    rw [cancel_of_skims h]
    cases result <;> rfl
  refine ⟨fun size => ⟨fun h => ?_, ?_⟩, fun polls hleast => ?_⟩
  · obtain ⟨result, read, hskims⟩ := exists_skims_of_size h
    rw [hsize hskims] at h
    exact ⟨result, read, hskims, (Option.some.inj h).symm⟩
  · rintro ⟨result, read, hskims, rfl⟩
    exact hsize hskims
  · rw [hsize ⟨polls, hleast, rfl, rfl⟩]
    obtain hok | ⟨e, herror⟩ :=
      Body.resultAfter_eq (Body.Noted.poll opened) ⟨[], held.body⟩ polls
    · simp [hok, Except.toOption]
    · simp [herror, Except.toOption, eq_comm]

/-- A body that ends is counted whole. -/
theorem HeldReply.cancel_counts_iff_ended :
    let held : HeldReply := ⟨⟨404, .empty⟩, .stream
      ⟨"body", false, [.frame (.data [1, 2, 3, 4]), .frame (.data [5, 6])], none⟩⟩
    ∃ polls, IsLeast {polls |
        Body.StopsAfter (Body.Noted.poll []) skimLimit ⟨[], held.body⟩ polls} polls ∧
      Body.given (Body.Noted.poll []) polls ⟨[], held.body⟩ = 6 ∧
      (held.cancel []).size = some 6 := by
  intro held
  have hread : held.body.skim [] skimLimit = some (.ok 6,
      ⟨[.exhausted "body", .produced "body" 2, .produced "body" 4],
        .stream ⟨"body", false, [], none⟩⟩) := rfl
  obtain ⟨polls, hleast, hresult, -⟩ := Body.skim_eq_some_iff.mp hread
  have hgiven := Body.given_of_resultAfter hresult.symm
  have hcounts := ((HeldReply.cancel_counts_iff [] held).2 polls hleast).mpr
    (.inl fun e herror => by rw [← hresult] at herror; cases herror)
  rw [hgiven] at hcounts
  exact ⟨polls, hleast, hgiven, hcounts⟩

/-- Four bytes are read before the body fails, and they are not counted. -/
theorem HeldReply.cancel_forgets :
    let held : HeldReply := ⟨⟨200, .empty⟩, .stream
      ⟨"body", false, [.frame (.data [1, 2, 3, 4]), .fail (.io "reset")], none⟩⟩
    (held.cancel []).size = some 0 ∧
      (held.cancel []).notes = [.produced "body" 4, .produced "body" 0,
        .log (.cancelFailed 200 (BodyError.io "reset").message)] ∧
      ∃ polls, IsLeast {polls |
          Body.StopsAfter (Body.Noted.poll []) skimLimit ⟨[], held.body⟩ polls} polls ∧
        Body.given (Body.Noted.poll []) polls ⟨[], held.body⟩ = 4 := by
  intro held
  have hlast : IsLeast {polls |
      Body.StopsAfter (Body.Noted.poll []) skimLimit ⟨[], held.body⟩ polls} 2 := by
    rw [Body.isLeast_succ (by decide) (by exact trivial)]
    exact Body.isLeast_one (by decide) id
  exact ⟨rfl, rfl, 2, hlast, rfl⟩

end Switchboard
