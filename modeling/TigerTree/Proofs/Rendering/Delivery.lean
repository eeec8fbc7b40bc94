import TigerTree.Rendering.Sink

/-! What a sink sees of a rendering. A text that cannot be rendered is never offered. Of any other
text every attempt offers just the bytes that are still unsent, so what the sink has taken is a
prefix of the text however the sink splits, delays or refuses it. -/

set_option autoImplicit false

namespace TigerTree

namespace Attempt

theorem takenInAll_cons (attempt : Attempt) (later : List Attempt) :
    takenInAll (attempt :: later) = attempt.taken ++ takenInAll later := rfl

def GoesOn (attempt : Attempt) : Prop :=
  (∃ count, attempt.reply = .took (count + 1)) ∨ attempt.reply = .interrupted

def RefusesFor (reason : String) (attempt : Attempt) : Prop :=
  attempt.reply = .failed reason ∨ attempt.reply = .took 0 ∧ reason = Sink.stalledReason

def interruptions (attempts : List Attempt) : Nat :=
  attempts.countP (fun attempt => attempt.reply = .interrupted)

theorem interruptions_cons (attempt : Attempt) (later : List Attempt) :
    interruptions (attempt :: later) = interruptions [attempt] + interruptions later := by
  rw [← List.singleton_append]
  exact List.countP_append

end Attempt

open Attempt (takenInAll interruptions)

/-- A delivery of the given bytes to a sink that has been asked and has taken bytes before. -/
structure Sink.Delivers (sink : Sink) (patience asked taken : Nat) (bytes : List UInt8)
    (delivery : Delivery) : Prop where
  /-- Every attempt offers the bytes that the earlier ones have left, and there are some. -/
  offers : ∀ earlier attempt later, delivery.attempts = earlier ++ attempt :: later →
    attempt.offered ≠ [] ∧ takenInAll earlier ++ attempt.offered = bytes
  replies : ∀ earlier attempt later, delivery.attempts = earlier ++ attempt :: later →
    attempt.reply =
      sink.reply (asked + earlier.length) (taken + (takenInAll earlier).length)
        attempt.offered.length
  goesOn : ∀ earlier attempt next later,
    delivery.attempts = earlier ++ attempt :: next :: later → attempt.GoesOn
  taken_prefix : takenInAll delivery.attempts <+: bytes
  complete_iff : delivery.ending = .complete ↔ takenInAll delivery.attempts = bytes
  refused : ∀ reason, delivery.ending = .refused reason →
    ∃ earlier last, delivery.attempts = earlier ++ [last] ∧ last.RefusesFor reason
  abandoned : delivery.ending = .abandoned → patience < interruptions delivery.attempts

namespace Sink.Delivers

variable {sink : Sink} {patience left asked taken : Nat} {unsent : List UInt8}
  {delivery : Delivery}

/-- Nothing remains to be offered. -/
theorem nothing : sink.Delivers patience asked taken [] ⟨[], .complete⟩ where
  offers earlier _ _ split := by cases earlier <;> cases split
  replies earlier _ _ split := by cases earlier <;> cases split
  goesOn earlier _ _ _ split := by cases earlier <;> cases split
  taken_prefix := List.prefix_rfl
  complete_iff := by simp [takenInAll]
  refused _ refused := by cases refused
  abandoned abandoned := by cases abandoned

/-- A last attempt, in which nothing was taken. -/
theorem last (attempt : Attempt) {ending : DeliveryEnd} (nonempty : attempt.offered ≠ [])
    (answered : attempt.reply = sink.reply asked taken attempt.offered.length)
    (nothing : attempt.taken = []) (incomplete : ending ≠ .complete)
    (refused : ∀ reason, ending = .refused reason → attempt.RefusesFor reason)
    (abandoned : ending = .abandoned → patience < interruptions [attempt]) :
    sink.Delivers patience asked taken attempt.offered ⟨[attempt], ending⟩ where
  offers := by
    intro earlier found later split
    cases earlier with
    | nil =>
        cases split
        exact ⟨nonempty, rfl⟩
    | cons first rest => cases rest <;> cases split
  replies := by
    intro earlier found later split
    cases earlier with
    | nil =>
        cases split
        exact answered
    | cons first rest => cases rest <;> cases split
  goesOn := by
    intro earlier found next later split
    cases earlier with
    | nil => cases split
    | cons first rest => cases rest <;> cases split
  taken_prefix := by
    rw [Attempt.takenInAll_cons, nothing]
    exact List.nil_prefix
  complete_iff := by
    rw [Attempt.takenInAll_cons, nothing]
    constructor
    · intro complete
      exact absurd complete incomplete
    · intro same
      exact absurd same.symm nonempty
  refused reason isRefused := ⟨[], attempt, rfl, refused reason isRefused⟩
  abandoned := abandoned

/-- One attempt more in front of a delivery of what it leaves. -/
theorem after (attempt : Attempt) (nonempty : attempt.offered ≠ [])
    (answered : attempt.reply = sink.reply asked taken attempt.offered.length)
    (goesOn : attempt.GoesOn) (leaves : attempt.taken ++ unsent = attempt.offered)
    (spent : patience ≤ left + interruptions [attempt])
    (rest : sink.Delivers left (asked + 1) (taken + attempt.taken.length) unsent delivery) :
    sink.Delivers patience asked taken attempt.offered (delivery.after attempt) where
  offers := by
    intro earlier found later split
    cases earlier with
    | nil =>
        cases split
        exact ⟨nonempty, rfl⟩
    | cons first earlier =>
        obtain ⟨rfl, splitRest⟩ := List.cons.inj split
        obtain ⟨nonemptyHere, unsentSplit⟩ := rest.offers earlier found later splitRest
        constructor
        · exact nonemptyHere
        · rw [Attempt.takenInAll_cons, List.append_assoc, unsentSplit]
          exact leaves
  replies := by
    intro earlier found later split
    cases earlier with
    | nil =>
        cases split
        exact answered
    | cons first earlier =>
        obtain ⟨rfl, splitRest⟩ := List.cons.inj split
        rw [rest.replies earlier found later splitRest, Attempt.takenInAll_cons,
          List.length_cons, List.length_append, Nat.add_assoc, Nat.add_assoc,
          Nat.add_comm 1]
  goesOn := by
    intro earlier found next later split
    cases earlier with
    | nil =>
        obtain ⟨rfl, _⟩ := List.cons.inj split
        exact goesOn
    | cons first earlier => exact rest.goesOn earlier found next later (List.cons.inj split).2
  taken_prefix := by
    change takenInAll (attempt :: delivery.attempts) <+: _
    rw [Attempt.takenInAll_cons, ← leaves]
    exact (List.prefix_append_right_inj _).mpr rest.taken_prefix
  complete_iff := by
    change delivery.ending = .complete ↔ takenInAll (attempt :: delivery.attempts) = _
    rw [Attempt.takenInAll_cons, ← leaves, List.append_cancel_left_eq]
    exact rest.complete_iff
  refused := by
    intro reason isRefused
    obtain ⟨earlier, last, split, refuses⟩ := rest.refused reason isRefused
    exact ⟨attempt :: earlier, last, congrArg (List.cons attempt) split, refuses⟩
  abandoned := by
    intro isAbandoned
    have counted := rest.abandoned isAbandoned
    change patience < interruptions (attempt :: delivery.attempts)
    rw [Attempt.interruptions_cons]
    omega

end Sink.Delivers

namespace Sink

theorem delivers_deliverFrom (sink : Sink) (patience asked taken : Nat) (remaining : List UInt8) :
    sink.Delivers patience asked taken remaining
      (sink.deliverFrom patience asked taken remaining) := by
  fun_induction deliverFrom sink patience asked taken remaining with
  | case1 patience asked taken => exact .nothing
  | case2 patience asked taken byte rest reason replied =>
      refine .last ⟨byte :: rest, .failed reason⟩ (List.cons_ne_nil _ _) replied.symm rfl ?_ ?_ ?_
      · intro complete
        cases complete
      · intro other refused
        cases refused
        exact .inl rfl
      · intro abandoned
        cases abandoned
  | case3 patience asked taken byte rest replied =>
      refine .last ⟨byte :: rest, .took 0⟩ (List.cons_ne_nil _ _) replied.symm rfl ?_ ?_ ?_
      · intro complete
        cases complete
      · intro other refused
        cases refused
        exact .inr ⟨rfl, rfl⟩
      · intro abandoned
        cases abandoned
  | case4 patience asked taken byte rest count replied ih =>
      have leaves : byte :: rest.take count ++ rest.drop count = byte :: rest :=
        congrArg (List.cons byte) (List.take_append_drop count rest)
      exact .after ⟨byte :: rest, .took (count + 1)⟩ (List.cons_ne_nil _ _) replied.symm
        (.inl ⟨count, rfl⟩) leaves (Nat.le_add_right _ _) ih
  | case5 asked taken byte rest replied =>
      refine .last ⟨byte :: rest, .interrupted⟩ (List.cons_ne_nil _ _) replied.symm rfl ?_ ?_ ?_
      · intro complete
        cases complete
      · intro reason refused
        cases refused
      · intro abandoned
        exact Nat.zero_lt_one
  | case6 asked taken byte rest replied patience ih =>
      exact .after ⟨byte :: rest, .interrupted⟩ (List.cons_ne_nil _ _) replied.symm (.inr rfl) rfl
        (Nat.le_refl _) ih

/-- A delivery that was not abandoned would not have gone differently with more patience. -/
theorem deliverFrom_of_le {sink : Sink} {patience more asked taken : Nat} {remaining : List UInt8}
    (ended : (sink.deliverFrom patience asked taken remaining).ending ≠ .abandoned)
    (enough : patience ≤ more) :
    sink.deliverFrom more asked taken remaining =
      sink.deliverFrom patience asked taken remaining := by
  fun_induction deliverFrom sink patience asked taken remaining generalizing more with
  | case1 patience asked taken => rw [deliverFrom]
  | case2 patience asked taken byte rest reason replied =>
      rw [deliverFrom.eq_def]
      simp only [replied]
  | case3 patience asked taken byte rest replied =>
      rw [deliverFrom.eq_def]
      simp only [replied]
  | case4 patience asked taken byte rest count replied ih =>
      rw [deliverFrom.eq_def]
      simp only [replied]
      exact congrArg (Delivery.after _) (ih ended enough)
  | case5 asked taken byte rest replied => exact absurd rfl ended
  | case6 asked taken byte rest replied patience ih =>
      obtain ⟨more, rfl⟩ : ∃ fewer, more = fewer + 1 := ⟨more - 1, by omega⟩
      rw [deliverFrom.eq_def]
      simp only [replied]
      exact congrArg (Delivery.after _) (ih ended (Nat.le_of_succ_le_succ enough))

end Sink

/-- A node that does not render is reported and the sink is not asked. The text of any other node
is delivered: what the sink takes is a prefix of it, and the whole of it exactly if the delivery
completes; anything else that ends the delivery is the reason the sink gave in its last reply, or
that it took nothing. A sink that interrupts no more than the delivery sits out is answered as it
would be with any more patience, and an empty text asks for nothing. -/
theorem Arena.delivers_deliverTo (arena : Arena) (style : Style) (node : NodeId) (sink : Sink)
    (patience : Nat) :
    (∀ stop, arena.render style node = .error stop →
      arena.deliverTo style node sink patience = (.stopped stop, [])) ∧
    ∀ text, arena.render style node = .ok text →
      ∃ delivery, sink.Delivers patience 0 0 text.toUTF8.toList delivery ∧
        arena.deliverTo style node sink patience =
          (.ofEnding delivery.ending, delivery.attempts) ∧
        arena.renderTo style node sink patience =
          (.ofEnding delivery.ending, takenInAll delivery.attempts) ∧
        (delivery.ending ≠ .abandoned → ∀ more, patience ≤ more →
          arena.deliverTo style node sink more = arena.deliverTo style node sink patience) ∧
        (text = "" → delivery = ⟨[], .complete⟩) := by
  constructor
  · intro stop failed
    rw [deliverTo, failed]
  · intro text rendered
    refine ⟨sink.deliver patience text, ?_, ?_, ?_, ?_, ?_⟩
    · exact sink.delivers_deliverFrom patience 0 0 text.toUTF8.toList
    · rw [deliverTo, rendered]
    · rw [renderTo, deliverTo, rendered]
    · intro ended more enough
      have same : sink.deliver more text = sink.deliver patience text :=
        Sink.deliverFrom_of_le ended enough
      rw [deliverTo, deliverTo, rendered]
      change (RenderOutcome.ofEnding (sink.deliver more text).ending,
        (sink.deliver more text).attempts) = _
      rw [same]
    · rintro rfl
      have nothing : "".toUTF8.toList = [] := by simp
      rw [Sink.deliver, nothing, Sink.deliverFrom]

def accentedLiteral : Arena where
  exprs := #[⟨.string ⟨1⟩, ⟨1, 1⟩⟩]
  exprLists := #[]
  decls := #[]
  declLists := #[]
  names := ⟨[("", ⟨0⟩), ("é", ⟨1⟩)], #["", "é"]⟩

/-- A sink that is full after two bytes leaves the accented letter half written. -/
theorem renderTo_accentedLiteral :
    accentedLiteral.render ⟨2, false⟩ (.expr ⟨0⟩) = .ok "\"é\"" ∧
      accentedLiteral.renderTo ⟨2, false⟩ (.expr ⟨0⟩) (.metered 4 2 (.failed "full")) 0 =
        (.stopped (.diagnosed (.undelivered "full")), [34, 195]) ∧
      [34, 195] <+: "\"é\"".toUTF8.toList := by
  have rendered : accentedLiteral.render ⟨2, false⟩ (.expr ⟨0⟩) = .ok "\"é\"" := rfl
  have refused : accentedLiteral.renderTo ⟨2, false⟩ (.expr ⟨0⟩) (.metered 4 2 (.failed "full")) 0 =
      (.stopped (.diagnosed (.undelivered "full")), [34, 195]) := by decide +kernel
  obtain ⟨delivery, delivers, _, same, _⟩ :=
    (Arena.delivers_deliverTo accentedLiteral ⟨2, false⟩ (.expr ⟨0⟩) (.metered 4 2 (.failed "full"))
      0).2 "\"é\"" rendered
  have taken : takenInAll delivery.attempts = [34, 195] :=
    congrArg Prod.snd (same.symm.trans refused)
  have isPrefix := delivers.taken_prefix
  rw [taken] at isPrefix
  exact ⟨rendered, refused, isPrefix⟩

end TigerTree
