import Switchboard.Proofs.Body.Content
import Switchboard.Race.Basic
set_option autoImplicit false

/-! # When skimming returns

Skimming asks a producer for frames until the data reaches a limit or a poll gives no frame. Frames
without data bring it no nearer to the limit, so it goes on for ever exactly if every poll gives a
frame and the data stays below the limit (`Body.KeepsBusy`). For a scripted body that is the case
only if it ends in an endless supply of empty frames (`Feed.Dawdles`), and the bound that
`Body.skim` puts on the polls cuts no other body short. -/

namespace Switchboard

/-! ## Producers that never let go -/

/-- Whether a poll gives a frame. -/
def Polled.IsFrame : Polled → Prop
  | .frame _ => True
  | .failed _ => False
  | .pending => False
  | .ended => False

/-- The number of bytes of data that a poll gives. -/
def Polled.size : Polled → Nat
  | .frame (.data bytes) => bytes.length
  | .frame (.trailers _) => 0
  | .failed _ => 0
  | .pending => 0
  | .ended => 0

namespace Body

section

variable {σ τ : Type} {poll : σ → Polled × σ} {limit fuel size : Nat} {producer : σ}

/-- A producer after so many polls. -/
def after (poll : σ → Polled × σ) : Nat → σ → σ
  | 0, producer => producer
  | polls + 1, producer => after poll polls (poll producer).2

/-- The number of bytes of data that so many polls give. -/
def given (poll : σ → Polled × σ) : Nat → σ → Nat
  | 0, _ => 0
  | polls + 1, producer => (poll producer).1.size + given poll polls (poll producer).2

/-- Every poll gives a frame, and however many there have been, their data added to the size does
not reach the limit. -/
def KeepsBusy (poll : σ → Polled × σ) (limit size : Nat) (producer : σ) : Prop :=
  ∀ polls, (poll (after poll polls producer)).1.IsFrame ∧ size + given poll polls producer < limit

/-- A producer keeps the reader busy if it gives a frame and goes on to keep it busy. -/
theorem keepsBusy_iff : KeepsBusy poll limit size producer ↔
    size < limit ∧ (poll producer).1.IsFrame ∧
      KeepsBusy poll limit (size + (poll producer).1.size) (poll producer).2 := by
  constructor
  · intro h
    refine ⟨(h 0).2, (h 0).1, fun polls => ⟨(h (polls + 1)).1, ?_⟩⟩
    rw [Nat.add_assoc]
    exact (h (polls + 1)).2
  · rintro ⟨hlimit, hframe, hrest⟩ polls
    cases polls with
    | zero => exact ⟨hframe, hlimit⟩
    | succ polls =>
      refine ⟨(hrest polls).1, ?_⟩
      rw [given, ← Nat.add_assoc]
      exact (hrest polls).2

/-- Fuel runs out at once only below the limit. -/
theorem skimWithin_zero : skimWithin poll limit 0 size producer = none ↔ size < limit := by
  rw [skimWithin]
  split
  · simp only [reduceCtorEq, false_iff]
    omega
  · simp only [true_iff]
    omega

/-- One more unit of fuel is one more poll, which must give a frame for the reading to go on. -/
theorem skimWithin_succ : skimWithin poll limit (fuel + 1) size producer = none ↔
    size < limit ∧ (poll producer).1.IsFrame ∧
      skimWithin poll limit fuel (size + (poll producer).1.size) (poll producer).2 = none := by
  rw [skimWithin]
  split
  · next h =>
    simp only [reduceCtorEq, false_iff]
    omega
  · next h =>
    have hlimit : size < limit := Nat.lt_of_not_le h
    obtain ⟨polled, rest⟩ := poll producer
    cases polled with
    | frame frame =>
      cases frame with
      | data bytes => simp only [Polled.IsFrame, Polled.size, hlimit, true_and]
      | trailers headers =>
        simp only [Polled.IsFrame, Polled.size, hlimit, true_and, Nat.add_zero]
    | failed error => simp only [Polled.IsFrame, reduceCtorEq, false_and, and_false]
    | pending => simp only [Polled.IsFrame, reduceCtorEq, false_and, and_false]
    | ended => simp only [Polled.IsFrame, reduceCtorEq, false_and, and_false]

/-- **Skimming goes on for ever** exactly if the producer keeps the reader busy. -/
theorem skimWithin_none_iff :
    (∀ fuel, skimWithin poll limit fuel size producer = none) ↔
      KeepsBusy poll limit size producer := by
  constructor
  · intro h polls
    -- the first polls are those that fuel for one poll more makes
    induction polls generalizing size producer with
    | zero =>
      obtain ⟨hlimit, hframe, _⟩ := skimWithin_succ.mp (h 1)
      exact ⟨hframe, hlimit⟩
    | succ polls ih =>
      obtain ⟨hframe, hlimit⟩ := ih fun fuel => (skimWithin_succ.mp (h (fuel + 1))).2.2
      refine ⟨hframe, ?_⟩
      rw [given, ← Nat.add_assoc]
      exact hlimit
  · intro h fuel
    induction fuel generalizing size producer with
    | zero => exact skimWithin_zero.mpr (h 0).2
    | succ fuel ih =>
      obtain ⟨hlimit, hframe, hrest⟩ := keepsBusy_iff.mp h
      exact skimWithin_succ.mpr ⟨hlimit, hframe, ih hrest⟩

/-- Fuel runs out only below the limit. -/
theorem below_of_skimWithin (h : skimWithin poll limit fuel size producer = none) :
    size < limit := by
  cases fuel with
  | zero => exact skimWithin_zero.mp h
  | succ fuel => exact (skimWithin_succ.mp h).1

/-- Where each byte of room has its unit of fuel, a poll that gives a frame passes the question
on. -/
theorem skimWithin_frame (hfuel : limit ≤ size + fuel) (hframe : (poll producer).1.IsFrame) :
    skimWithin poll limit fuel size producer = none ↔
      skimWithin poll limit (fuel - 1) (size + (poll producer).1.size) (poll producer).2 =
        none := by
  constructor
  · intro h
    have hlimit := below_of_skimWithin h
    obtain ⟨fuel, rfl⟩ := Nat.exists_eq_add_one_of_ne_zero (by omega : fuel ≠ 0)
    exact (skimWithin_succ.mp h).2.2
  · intro h
    have hlimit := below_of_skimWithin h
    obtain ⟨fuel, rfl⟩ := Nat.exists_eq_add_one_of_ne_zero (by omega : fuel ≠ 0)
    exact skimWithin_succ.mpr ⟨by omega, hframe, h⟩

/-- Where each byte of room has its unit of fuel, a poll that gives no frame ends the reading. -/
theorem skimWithin_returns (hfuel : limit ≤ size + fuel) (hframe : ¬ (poll producer).1.IsFrame) :
    skimWithin poll limit fuel size producer ≠ none := by
  intro h
  have hlimit := below_of_skimWithin h
  obtain ⟨fuel, rfl⟩ := Nat.exists_eq_add_one_of_ne_zero (by omega : fuel ≠ 0)
  exact hframe (skimWithin_succ.mp h).2.1

/-- Fuel that does not suffice suffices even less when there is less of it. -/
theorem skimWithin_none_of_le {enough : Nat} (hle : fuel ≤ enough)
    (h : skimWithin poll limit enough size producer = none) :
    skimWithin poll limit fuel size producer = none := by
  induction fuel generalizing enough size producer with
  | zero =>
    cases enough with
    | zero => exact h
    | succ enough => exact skimWithin_zero.mpr (skimWithin_succ.mp h).1
  | succ fuel ih =>
    obtain ⟨enough, rfl⟩ := Nat.exists_eq_add_one_of_ne_zero (by omega : enough ≠ 0)
    obtain ⟨hlimit, hframe, hrest⟩ := skimWithin_succ.mp h
    exact skimWithin_succ.mpr ⟨hlimit, hframe, ih (Nat.le_of_succ_le_succ hle) hrest⟩

/-- Only the first poll tells one state of a producer from another. -/
theorem skimWithin_congr {other : σ} (h : poll other = poll producer) :
    skimWithin poll limit fuel size other = none ↔
      skimWithin poll limit fuel size producer = none := by
  cases fuel with
  | zero => rw [skimWithin_zero, skimWithin_zero]
  | succ fuel => rw [skimWithin_succ, skimWithin_succ, h]

/-- Producers that give the same, poll by poll, take the same fuel. -/
theorem skimWithin_related {poll' : τ → Polled × τ} (Related : σ → τ → Prop)
    (hpoll : ∀ one other, Related one other →
      (poll one).1 = (poll' other).1 ∧ Related (poll one).2 (poll' other).2)
    {other : τ} (h : Related producer other) :
    skimWithin poll limit fuel size producer = none ↔
      skimWithin poll' limit fuel size other = none := by
  induction fuel generalizing size producer other with
  | zero => rw [skimWithin_zero, skimWithin_zero]
  | succ fuel ih =>
    obtain ⟨hgives, hrest⟩ := hpoll producer other h
    rw [skimWithin_succ, skimWithin_succ, hgives, ih hrest]

end

end Body

/-! ## Scripted bodies -/

/-- The reader goes past the item: it gives a frame, or there is nothing to wait for. -/
def Item.Passes (opened : List String) : Item → Prop
  | .frame _ => True
  | .fail _ => False
  | .wait ms => ms = 0
  | .gate name => opened.contains name
  | .stall => False

/-- A frame has the size of its data. -/
theorem Polled.size_frame {frame : Frame} :
    (Polled.frame frame).size = (Item.frame frame).data.length := by
  cases frame with
  | data bytes => rfl
  | trailers headers => rfl

namespace Feed

/-- From these items on the feed gives frames for ever, and less data than there is room for. -/
structure Dawdles (opened : List String) (feed : Feed) (items : List Item) (room : Nat) : Prop where
  endless : feed.endless = some []
  passes : ∀ item ∈ items, item.Passes opened
  below : (items.flatMap Item.data).length < room

/-- One poll of the items of a feed, without the notes. -/
def pollQuietly (opened : List String) (feed : Feed) (items : List Item) : Polled × List Item :=
  (feed.pollItems opened items).2

section

variable {opened : List String} {limit fuel size room : Nat} {feed : Feed} {item : Item}
  {items : List Item}

/-- What a poll gives depends only on the items that are polled, not on those the feed began
with. -/
theorem pollItems_items (left : List Item) :
    ({ feed with items := left }).pollItems opened items = feed.pollItems opened items := by
  induction items with
  | nil => rfl
  | cons item rest ih =>
    cases item with
    | frame frame =>
      cases frame with
      | data bytes => rfl
      | trailers headers => simp only [pollItems, ih]
    | fail error => rfl
    | wait ms => simp only [pollItems, ih]
    | gate name => simp only [pollItems, ih]
    | stall => rfl

theorem dawdles_nil : feed.Dawdles opened [] room ↔ feed.endless = some [] ∧ 0 < room := by
  constructor
  · intro h
    exact ⟨h.endless, h.below⟩
  · rintro ⟨hendless, hroom⟩
    exact ⟨hendless, List.forall_mem_nil _, hroom⟩

/-- An item takes as much of the room as it has data. -/
theorem dawdles_cons : feed.Dawdles opened (item :: items) room ↔
    item.Passes opened ∧ feed.Dawdles opened items (room - item.data.length) := by
  constructor
  · intro h
    have hbelow := h.below
    rw [List.flatMap_cons, List.length_append] at hbelow
    obtain ⟨hitem, hitems⟩ := List.forall_mem_cons.mp h.passes
    exact ⟨hitem, h.endless, hitems, by omega⟩
  · rintro ⟨hitem, hitems⟩
    have hbelow := hitems.below
    refine ⟨hitems.endless, List.forall_mem_cons.mpr ⟨hitem, hitems.passes⟩, ?_⟩
    rw [List.flatMap_cons, List.length_append]
    omega

/-- Empty frames for ever: the reading never ends if it is still below the limit. -/
theorem skimWithin_endless_empty (hendless : feed.endless = some []) (hlimit : size < limit) :
    Body.skimWithin (feed.pollQuietly opened) limit fuel size [] = none := by
  induction fuel with
  | zero => exact Body.skimWithin_zero.mpr hlimit
  | succ fuel ih =>
    have hpoll : feed.pollQuietly opened [] = (.frame (.data []), []) := by
      rw [pollQuietly, pollItems, hendless]
    rw [Body.skimWithin_succ, hpoll]
    exact ⟨hlimit, trivial, ih⟩

/-- Frames with data for ever: each unit of fuel brings the reading nearer to the limit. -/
theorem skimWithin_endless_data {bytes : Bytes} (hendless : feed.endless = some bytes)
    (hbytes : bytes ≠ []) (hfuel : limit ≤ size + fuel) :
    Body.skimWithin (feed.pollQuietly opened) limit fuel size [] ≠ none := by
  have hpoll : feed.pollQuietly opened [] = (.frame (.data bytes), []) := by
    rw [pollQuietly, pollItems, hendless]
  have hlength : 0 < bytes.length := List.length_pos_iff.mpr hbytes
  intro h
  induction fuel generalizing size with
  | zero => exact Nat.not_lt.mpr hfuel (Body.skimWithin_zero.mp h)
  | succ fuel ih =>
    obtain ⟨_, _, hrest⟩ := Body.skimWithin_succ.mp h
    rw [hpoll] at hrest
    refine ih ?_ hrest
    rw [Polled.size]
    omega

/-- Once its items are read, a feed keeps the reader below the limit only with empty frames. -/
theorem skimWithin_nil (hfuel : limit ≤ size + fuel) :
    Body.skimWithin (feed.pollQuietly opened) limit fuel size [] = none ↔
      feed.Dawdles opened [] (limit - size) := by
  rw [dawdles_nil]
  constructor
  · intro h
    have hlimit := Body.below_of_skimWithin h
    refine ⟨?_, by omega⟩
    cases hendless : feed.endless with
    | none =>
      have hpoll : feed.pollQuietly opened [] = (.ended, []) := by
        rw [pollQuietly, pollItems, hendless]
      exact absurd h (Body.skimWithin_returns hfuel (by rw [hpoll]; exact id))
    | some bytes =>
      by_cases hbytes : bytes = []
      · rw [hbytes]
      · exact absurd h (skimWithin_endless_data hendless hbytes hfuel)
  · rintro ⟨hendless, hroom⟩
    exact skimWithin_endless_empty hendless (by omega)

/-- An item is given as a frame, or it is passed by, or it ends the reading. -/
theorem pollQuietly_cons (opened : List String) (feed : Feed) (item : Item) (items : List Item) :
    (∃ frame, item = .frame frame ∧
      feed.pollQuietly opened (item :: items) = (.frame frame, items)) ∨
    (item.Passes opened ∧ item.data = [] ∧
      feed.pollQuietly opened (item :: items) = feed.pollQuietly opened items) ∨
    (¬ item.Passes opened ∧ ¬ (feed.pollQuietly opened (item :: items)).1.IsFrame) := by
  cases item with
  | frame frame =>
    cases frame with
    | data bytes => exact .inl ⟨.data bytes, rfl, rfl⟩
    | trailers headers =>
      by_cases hdata : feed.dataOnly
      · refine .inr (.inl ⟨trivial, rfl, ?_⟩)
        simp only [pollQuietly, pollItems, hdata, if_true]
      · refine .inl ⟨.trailers headers, rfl, ?_⟩
        simp only [pollQuietly, pollItems, hdata, if_false, Bool.false_eq_true]
  | fail error => exact .inr (.inr ⟨id, id⟩)
  | wait ms =>
    by_cases hms : ms = 0
    · refine .inr (.inl ⟨hms, rfl, ?_⟩)
      simp only [pollQuietly, pollItems, hms, if_true]
    · refine .inr (.inr ⟨hms, ?_⟩)
      simp only [pollQuietly, pollItems, hms, if_false]
      exact id
  | gate name =>
    by_cases hopened : opened.contains name
    · refine .inr (.inl ⟨hopened, rfl, ?_⟩)
      simp only [pollQuietly, pollItems, hopened, if_true]
    · refine .inr (.inr ⟨hopened, ?_⟩)
      simp only [pollQuietly, pollItems, hopened, if_false, Bool.false_eq_true]
      exact id
  | stall => exact .inr (.inr ⟨id, id⟩)

/-- **Which scripts keep a reader busy.** Fuel for each item and for each byte up to the limit tells
them from those that take long. -/
theorem skimWithin_items (hfuel : items.length + limit ≤ size + fuel) :
    Body.skimWithin (feed.pollQuietly opened) limit fuel size items = none ↔
      feed.Dawdles opened items (limit - size) := by
  induction items generalizing fuel size with
  | nil =>
    rw [List.length_nil, Nat.zero_add] at hfuel
    exact skimWithin_nil hfuel
  | cons item rest ih =>
    rw [List.length_cons] at hfuel
    rw [dawdles_cons]
    obtain ⟨frame, rfl, hpoll⟩ | ⟨hpasses, hdata, hpoll⟩ | ⟨hpasses, hframe⟩ :=
      pollQuietly_cons opened feed item rest
    · rw [Body.skimWithin_frame (by omega) (by rw [hpoll]; exact trivial), hpoll, ih (by omega),
        Polled.size_frame, Nat.sub_sub]
      exact (and_iff_right trivial).symm
    · rw [Body.skimWithin_congr hpoll, ih (by omega), hdata, List.length_nil, Nat.sub_zero]
      exact (and_iff_right hpasses).symm
    · have hreturns : Body.skimWithin (feed.pollQuietly opened) limit fuel size (item :: rest) ≠
          none := Body.skimWithin_returns (by omega) hframe
      simp only [hreturns, hpasses, false_and]

end

end Feed

namespace Body

section

variable {opened : List String} {limit fuel size : Nat} {feed : Feed}

/-- What was noted makes no difference to what is read. -/
theorem skimWithin_stream {items : List Item} {latest : List Note} :
    skimWithin (Noted.poll opened) limit fuel size ⟨latest, .stream { feed with items := items }⟩ =
        none ↔
      skimWithin (feed.pollQuietly opened) limit fuel size items = none := by
  refine skimWithin_related
    (fun noted items => noted.body = .stream { feed with items := items }) ?_ rfl
  rintro ⟨latest, body⟩ items rfl
  simp only [Noted.poll, poll, Feed.pollQuietly, Feed.pollItems_items, and_self]

/-- **The bound on the polls is no restriction**: a body is not skimmed within it only if it
dawdles. -/
theorem skim_none_iff {body : Body} : body.skim opened limit = none ↔
    ∃ feed, body = .stream feed ∧ feed.Dawdles opened feed.items limit := by
  constructor
  · intro h
    unfold skim at h
    cases body with
    | empty =>
      obtain ⟨_, hframe, _⟩ := skimWithin_succ.mp h
      exact hframe.elim
    | once bytes =>
      obtain ⟨_, _, hrest⟩ := skimWithin_succ.mp h
      obtain ⟨_, hframe, _⟩ := skimWithin_succ.mp hrest
      exact hframe.elim
    | stream feed =>
      have hitems := skimWithin_stream.mp h
      rw [Feed.skimWithin_items (by rw [itemCount]; omega)] at hitems
      exact ⟨feed, rfl, hitems⟩
  · rintro ⟨feed, rfl, hdawdles⟩
    unfold skim
    refine skimWithin_stream.mpr ?_
    rw [Feed.skimWithin_items (by rw [itemCount]; omega)]
    exact hdawdles

/-- A body that dawdles keeps the reader busy for ever. -/
theorem skim_none_iff_keepsBusy {body : Body} : body.skim opened limit = none ↔
    KeepsBusy (Noted.poll opened) limit 0 ⟨[], body⟩ := by
  rw [← skimWithin_none_iff]
  constructor
  · intro h fuel
    obtain ⟨feed, rfl, hdawdles⟩ := skim_none_iff.mp h
    -- more fuel than asked for, so that it is enough to tell
    refine skimWithin_none_of_le (Nat.le_add_right fuel (feed.items.length + limit)) ?_
    refine skimWithin_stream.mpr ?_
    rw [Feed.skimWithin_items (by omega)]
    exact hdawdles
  · intro h
    exact h _

end

end Body

/-! ## Cancelled responses -/

namespace HeldReply

section

variable {opened : List String} {held : HeldReply}

/-- Cancelling is over once the body is skimmed, whether it failed or not. -/
theorem cancel_none_iff : (held.cancel opened).size = none ↔
    Body.KeepsBusy (Body.Noted.poll opened) skimLimit 0 ⟨[], held.body⟩ := by
  rw [← Body.skim_none_iff_keepsBusy, cancel]
  split
  · next hskim => simp only [hskim, reduceCtorEq]
  · next hskim => simp only [hskim, reduceCtorEq]
  · next hskim => simp only [hskim]

end

end HeldReply

section

variable {σ : Type} (poll : σ → Polled × σ) (limit : Nat) (producer : σ) (opened : List String)
  (body : Body) (losers : List (Nat × HeldReply))

/-- **Skimming returns unless every poll gives a frame and the data never reaches the limit.** So it
is for every producer, for every scripted body within the polls that it is allowed, and for the
losers of a race, which are all done with exactly if none of them keeps the reader busy. A scripted
body does so only by an endless supply of empty frames. -/
theorem Body.skimming_returns_iff :
    ((∃ fuel answer, skimWithin poll limit fuel 0 producer = some answer) ↔
      ¬ KeepsBusy poll limit 0 producer) ∧
    ((∃ answer, body.skim opened limit = some answer) ↔
      ¬ KeepsBusy (Noted.poll opened) limit 0 ⟨[], body⟩) ∧
    (KeepsBusy (Noted.poll opened) limit 0 ⟨[], body⟩ ↔
      ∃ feed, body = .stream feed ∧ feed.Dawdles opened feed.items limit) ∧
    ((Race.cancelLosers opened losers).2 = true ↔
      ∀ loser ∈ losers,
        ¬ KeepsBusy (Noted.poll opened) HeldReply.skimLimit 0 ⟨[], loser.2.body⟩) := by
  refine ⟨?_, ?_, ?_, ?_⟩
  · rw [← skimWithin_none_iff, Classical.not_forall]
    exact exists_congr fun fuel => Option.ne_none_iff_exists'.symm
  · rw [← skim_none_iff_keepsBusy]
    exact Option.ne_none_iff_exists'.symm
  · rw [← skim_none_iff_keepsBusy, skim_none_iff]
  · rw [Race.cancelLosers, HeldReply.cancelAll_finishes_iff, List.forall_mem_map]
    exact forall₂_congr fun loser _ => not_congr HeldReply.cancel_none_iff

end

/-- A producer that is ready with an empty frame each time is asked for ever. -/
theorem Body.skimming_stuck :
    (∀ fuel, skimWithin (Noted.poll []) 100 fuel 0
      ⟨[], .stream ⟨"body", false, [], some []⟩⟩ = none) ∧
    (Body.stream ⟨"body", false, [], some []⟩).skim [] 100 = none ∧
    (HeldReply.cancel [] ⟨⟨200, .empty⟩, .stream ⟨"body", false, [], some []⟩⟩).size = none ∧
    (Race.cancelLosers [] [(1, ⟨⟨200, .empty⟩, .stream ⟨"body", false, [], some []⟩⟩)]).2 =
      false := by
  have hskim (limit : Nat) (hlimit : 0 < limit) :
      (Body.stream ⟨"body", false, [], some []⟩).skim [] limit = none :=
    skim_none_iff.mpr ⟨_, rfl, Feed.dawdles_nil.mpr ⟨rfl, hlimit⟩⟩
  have hcancel : (HeldReply.cancel []
      ⟨⟨200, .empty⟩, .stream ⟨"body", false, [], some []⟩⟩).size = none :=
    HeldReply.cancel_none_iff.mpr (skim_none_iff_keepsBusy.mp (hskim _ (by decide)))
  refine ⟨?_, hskim 100 (by decide), hcancel, ?_⟩
  · exact skimWithin_none_iff.mpr (skim_none_iff_keepsBusy.mp (hskim 100 (by decide)))
  · rw [Race.cancelLosers, List.map_cons, HeldReply.cancelAll_of_stuck hcancel]

end Switchboard
