import Mathlib.Tactic.Common
import Collector.Script.Literal

/-!
# Scanners look no further than a closer

A scanner takes a literal off the front of a text. What it takes, and the value it reads, stay the
same when the text behind the literal changes, as long as that text agrees with the old one up to
a place where a closing parenthesis, a closing brace or a semicolon follows, or where it ends.

* `Shut`: the texts that may stand in the place of another one.
* `Scans`: what every scanner has, with the lemmas for scanners one after the other, for runs of
  characters and for conditions on what stands behind.
-/

namespace Collector.Script

open Collector.Text

variable {α β : Type}

/-! ## Texts behind a literal -/

/-- The characters that are a token on their own, whatever stands around them. -/
def isCloser (c : Char) : Bool := c == ')' || c == '}' || c == ';'

/-- Whether a text begins with a closer, or is empty. -/
def isClosed (text : List Char) : Bool := text.head?.all isCloser

/-- Whether `new` may stand in the place of `old`: it goes on as `old` does, and then comes a closer
or the end of the text. -/
def Shut (old new : List Char) : Prop :=
  ∃ same rest behind, old = same ++ rest ∧ new = same ++ behind ∧ isClosed behind = true

theorem isCloser_cases {c : Char} (h : isCloser c = true) : c = ')' ∨ c = '}' ∨ c = ';' := by
  simpa [isCloser, or_assoc] using h

/-- A fixed text without closers. -/
theorem not_closer_of_all {front : List Char} (h : front.all (fun c => !isCloser c) = true) :
    ∀ c ∈ front, isCloser c = false := by
  simpa using h

/-- What no closer has, told by the three of them. -/
theorem not_of_closer {p : Char → Bool} (h : p ')' = false ∧ p '}' = false ∧ p ';' = false) :
    ∀ c, isCloser c = true → p c = false := by
  intro c hc
  rcases isCloser_cases hc with rfl | rfl | rfl
  · exact h.1
  · exact h.2.1
  · exact h.2.2

namespace Shut

variable {old new : List Char}

/-- A closer or the end may stand in the place of any text. -/
theorem closed (old : List Char) (h : isClosed new = true) : Shut old new :=
  ⟨[], old, new, rfl, rfl, h⟩

theorem append (taken : List Char) (h : Shut old new) : Shut (taken ++ old) (taken ++ new) := by
  obtain ⟨same, rest, behind, rfl, rfl, hc⟩ := h
  exact ⟨taken ++ same, rest, behind, by simp, by simp, hc⟩

theorem cons (c : Char) (h : Shut old new) : Shut (c :: old) (c :: new) := h.append [c]

/-- The new text begins as the old one, or with a closer, or it is empty. -/
theorem head (h : Shut old new) :
    (∃ c tail tail', old = c :: tail ∧ new = c :: tail' ∧ Shut tail tail') ∨
      isClosed new = true := by
  obtain ⟨same, rest, behind, rfl, rfl, hc⟩ := h
  cases same with
  | nil => exact .inr hc
  | cons d same =>
    exact .inl ⟨d, same ++ rest, same ++ behind, rfl, rfl, same, rest, behind, rfl, rfl, hc⟩

/-- Where a run of characters ends in the old text, it ends in the new one. -/
theorem stops (p : Char → Bool) (hp : ∀ c, isCloser c = true → p c = false) (h : Shut old new)
    (hold : old.head?.any p = false) : new.head?.any p = false := by
  rcases h.head with ⟨c, tail, tail', rfl, rfl, _⟩ | hc
  · simpa using hold
  · cases new with
    | nil => rfl
    | cons c tail => simpa using hp c (by simpa [isClosed] using hc)

end Shut

theorem head_ne {c : Char} {text : List Char} (h : ∀ tail, text ≠ c :: tail) :
    text.head?.any (· == c) = false := by
  cases text with
  | nil => rfl
  | cons d tail =>
    have : d ≠ c := fun hd => h tail (by rw [hd])
    simpa using this

theorem head_eq {c : Char} {text : List Char} (h : text.head?.any (· == c) = true) :
    ∃ tail, text = c :: tail := by
  cases text with
  | nil => simp at h
  | cons d tail => exact ⟨tail, by simpa using h⟩

/-- The scanner takes the front of `text`, whatever may stand in the place of `rest`. -/
def Takes (scan : Scanner α) (text : List Char) (value : α) (rest : List Char) : Prop :=
  ∃ taken, text = taken ++ rest ∧ ∀ new, Shut rest new → scan (taken ++ new) = some (value, new)

/-- What a scanner takes and answers does not depend on what stands behind. -/
def Scans (scan : Scanner α) : Prop :=
  ∀ text value rest, scan text = some (value, rest) → Takes scan text value rest

namespace Takes

variable {scan other : Scanner α} {text rest : List Char} {value : α}

/-- A scanner that takes nothing. -/
theorem nothing (h : ∀ new, Shut rest new → scan new = some (value, new)) :
    Takes scan rest value rest :=
  ⟨[], rfl, h⟩

/-- Characters that are passed over before another scanner goes on. -/
theorem passed (front : List Char) {f : α → β} {whole : Scanner β} (h : Takes scan text value rest)
    (hw : ∀ tail new, scan tail = some (value, new) → whole (front ++ tail) = some (f value, new)) :
    Takes whole (front ++ text) (f value) rest := by
  obtain ⟨taken, rfl, same⟩ := h
  refine ⟨front ++ taken, by simp, fun new hn => ?_⟩
  rw [List.append_assoc]
  exact hw _ _ (same new hn)

end Takes

/-- A scanner whose answer is passed on changed. -/
theorem Scans.map {scan : Scanner α} (h : Scans scan) (f : α → β) :
    Scans fun text => (scan text).map fun (value, rest) => (f value, rest) := by
  intro text value rest hs
  obtain ⟨⟨v, r⟩, hv, hr⟩ := Option.map_eq_some_iff.mp hs
  obtain ⟨rfl, rfl⟩ := Prod.mk.inj hr
  obtain ⟨taken, rfl, same⟩ := h text v r hv
  exact ⟨taken, rfl, fun new hn => by simp [same new hn]⟩

/-- Two scanners one after the other. -/
theorem Scans.bind {scan : Scanner α} {k : α → Scanner β} (h : Scans scan)
    (hn : ∀ value, Scans (k value)) :
    Scans fun text => (scan text).bind fun (value, rest) => k value rest := by
  intro text value rest hs
  obtain ⟨⟨v, r⟩, hv, hr⟩ := Option.bind_eq_some_iff.mp hs
  obtain ⟨first, rfl, same⟩ := h text v r hv
  obtain ⟨second, rfl, same'⟩ := hn v r value rest hr
  refine ⟨first ++ second, by simp, fun new hnew => ?_⟩
  simp [same (second ++ new) (hnew.append second), same' new hnew]

/-- A run of characters of one kind. -/
theorem span_scans (p : Char → Bool) (hp : ∀ c, isCloser c = true → p c = false) :
    Scans fun text => some (text.takeWhile p, text.dropWhile p) := by
  rintro text value rest ⟨⟩
  refine ⟨text.takeWhile p, (List.takeWhile_append_dropWhile).symm, fun new hn => ?_⟩
  have hold : (text.dropWhile p).head?.any p = false := by
    cases h : text.dropWhile p with
    | nil => rfl
    | cons c tail =>
      have := List.head?_dropWhile_not p text
      simpa [h] using this
  have hnew := hn.stops p hp hold
  have hall : ∀ c ∈ text.takeWhile p, p c = true := List.all_eq_true.mp List.all_takeWhile
  show some (_, _) = some (_, _)
  rw [List.takeWhile_append_of_pos hall, List.dropWhile_append_of_pos hall]
  cases new with
  | nil => simp
  | cons c tail =>
    have : p c = false := by simpa using hnew
    simp [this]

/-- A condition on what stands behind. -/
theorem guard_scans (p : Char → Bool) (hp : ∀ c, isCloser c = true → p c = false) (value : α) :
    Scans fun text => if text.head?.any p then none else some (value, text) := by
  intro text value' rest h
  cases ho : text.head?.any p with
  | true => simp [ho] at h
  | false =>
    simp only [ho, Bool.false_eq_true, if_false, Option.some.injEq, Prod.mk.injEq] at h
    obtain ⟨rfl, rfl⟩ := h
    exact .nothing fun new hn => by simp [hn.stops p hp ho]

end Collector.Script
