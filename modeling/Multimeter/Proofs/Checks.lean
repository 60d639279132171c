import Mathlib.Tactic.Common

/-!
# Checks in sequence

Frames are read by checks that run one behind the other; the first that fails decides.

* `bind_eq_ok_iff`, `mapError_eq_ok_iff`, `ite_error_eq_ok_iff`: when a sequence succeeds.
* `bind_eq_error`, `bind_eq_error_iff`, `mapError_eq_error_iff`: the first failure decides.
* `of_mapM_eq_ok`, `of_mapM_eq_some`, `mapM_eq_some_iff`, `range_mapM_eq_some_iff`: what the
  results over a list are.
* `mapM_congr`: when two sequences over a list are the same.
* `exists_mapM_eq_ok`, `mapM_eq_error_of_find?`: when a sequence over a list succeeds, and which
  item decides when it fails.
* `FailsOnly`: all failures of a check have a property, and how this passes through sequences.
-/

namespace Multimeter

section

variable {ε ε' α β : Type}

theorem bind_eq_ok_iff {x : Except ε α} {f : α → Except ε β} {b : β} :
    (x >>= f) = .ok b ↔ ∃ a, x = .ok a ∧ f a = .ok b := by
  cases x with
  | error e => exact ⟨fun h => (nomatch h), fun ⟨_, h, _⟩ => (nomatch h)⟩
  | ok a => exact ⟨fun h => ⟨a, rfl, h⟩, fun ⟨_, h, hf⟩ => by cases h; exact hf⟩

theorem mapError_eq_ok_iff {f : ε → ε'} {x : Except ε α} {a : α} :
    x.mapError f = .ok a ↔ x = .ok a := by
  cases x <;> simp [Except.mapError]

theorem ite_error_eq_ok_iff {c : Prop} [Decidable c] {e : ε} {x : Except ε α} {a : α} :
    (if c then .error e else x) = .ok a ↔ ¬ c ∧ x = .ok a := by
  split_ifs with h <;> simp [h]

theorem bind_of_eq_ok {x : Except ε α} {f : α → Except ε β} {a : α} (h : x = .ok a) :
    (x >>= f) = f a := by
  rw [h]
  rfl

theorem bind_eq_error {x : Except ε α} {f : α → Except ε β} {e : ε} (h : x = .error e) :
    (x >>= f) = .error e := by
  rw [h]
  rfl

theorem bind_eq_error_iff {x : Except ε α} {f : α → Except ε β} {e : ε} :
    (x >>= f) = .error e ↔ x = .error e ∨ ∃ a, x = .ok a ∧ f a = .error e := by
  cases x <;> simp [bind, Except.bind]

theorem mapError_eq_error_iff {f : ε → ε'} {x : Except ε α} {e' : ε'} :
    x.mapError f = .error e' ↔ ∃ e, x = .error e ∧ e' = f e := by
  cases x <;> simp [Except.mapError, eq_comm]

theorem of_mapM_eq_ok {f : α → Except ε β} {l : List α} {bs : List β}
    (h : l.mapM f = .ok bs) :
    bs.length = l.length ∧ ∀ b ∈ bs, ∃ a, f a = .ok b := by
  induction l generalizing bs with
  | nil =>
    obtain rfl := Except.ok.inj h
    exact ⟨rfl, nofun⟩
  | cons a l ih =>
    rw [List.mapM_cons] at h
    obtain ⟨b, hb, h⟩ := bind_eq_ok_iff.mp h
    obtain ⟨rest, hrest, h⟩ := bind_eq_ok_iff.mp h
    obtain rfl := Except.ok.inj h
    obtain ⟨hlength, hall⟩ := ih hrest
    exact ⟨congrArg (· + 1) hlength, List.forall_mem_cons.mpr ⟨⟨a, hb⟩, hall⟩⟩

theorem exists_mapM_eq_ok {f : α → Except ε β} {l : List α} (h : ∀ a ∈ l, ∃ b, f a = .ok b) :
    ∃ bs, l.mapM f = .ok bs := by
  induction l with
  | nil => exact ⟨[], rfl⟩
  | cons a l ih =>
    obtain ⟨⟨b, hb⟩, hl⟩ := List.forall_mem_cons.mp h
    obtain ⟨bs, hbs⟩ := ih hl
    exact ⟨b :: bs, by rw [List.mapM_cons, bind_of_eq_ok hb, bind_of_eq_ok hbs]; rfl⟩

/-- The first bad item of a list decides, when the items before it succeed. -/
theorem mapM_eq_error_of_find? {f : α → Except ε β} {l : List α} {bad : α → Bool} {a : α} {e : ε}
    (hfind : l.find? bad = some a) (hgood : ∀ b ∈ l, bad b = false → ∃ c, f b = .ok c)
    (hbad : f a = .error e) : l.mapM f = .error e := by
  induction l with
  | nil => exact nomatch hfind
  | cons b l ih =>
    obtain ⟨hb, hl⟩ := List.forall_mem_cons.mp hgood
    rw [List.mapM_cons]
    cases hcase : bad b with
    | true =>
      rw [List.find?_cons_of_pos hcase] at hfind
      obtain rfl := Option.some.inj hfind
      exact bind_eq_error hbad
    | false =>
      rw [List.find?_cons_of_neg (Bool.eq_false_iff.mp hcase)] at hfind
      obtain ⟨c, hc⟩ := hb hcase
      rw [bind_of_eq_ok hc]
      exact bind_eq_error (ih hfind hl)

theorem of_mapM_eq_some {f : α → Option β} {l : List α} {bs : List β}
    (h : l.mapM f = some bs) :
    bs.length = l.length ∧ ∀ b ∈ bs, ∃ a, f a = some b := by
  induction l generalizing bs with
  | nil =>
    obtain rfl := Option.some.inj h
    exact ⟨rfl, nofun⟩
  | cons a l ih =>
    rw [List.mapM_cons] at h
    obtain ⟨b, hb, h⟩ := Option.bind_eq_some_iff.mp h
    obtain ⟨rest, hrest, h⟩ := Option.bind_eq_some_iff.mp h
    obtain rfl := Option.some.inj h
    obtain ⟨hlength, hall⟩ := ih hrest
    exact ⟨congrArg (· + 1) hlength, List.forall_mem_cons.mpr ⟨⟨a, hb⟩, hall⟩⟩

theorem mapM_eq_some_iff {f : α → Option β} {l : List α} {bs : List β} :
    l.mapM f = some bs ↔ l.map f = bs.map some := by
  induction l generalizing bs with
  | nil => cases bs <;> simp
  | cons a l ih => cases bs <;> simp [List.mapM_cons, Option.bind_eq_some_iff, ih]

theorem range_mapM_eq_some_iff {f : Nat → Option β} {n : Nat} {bs : List β} :
    (List.range n).mapM f = some bs ↔
      bs.length = n ∧ ∀ i b, bs[i]? = some b → f i = some b := by
  rw [mapM_eq_some_iff]
  constructor
  · intro h
    have hlength : bs.length = n := by simpa using (congrArg List.length h).symm
    refine ⟨hlength, fun i b hb => ?_⟩
    have hi : i < n := hlength ▸ (List.getElem?_eq_some_iff.mp hb).1
    simpa [hi, hb] using congrArg (·[i]?) h
  · rintro ⟨rfl, h⟩
    refine List.ext_getElem (by simp) fun i hi _ => ?_
    simp [h i _ (List.getElem?_eq_getElem (by simpa using hi))]

theorem mapM_congr {m : Type → Type} [Monad m] [LawfulMonad m] {f g : α → m β} {l : List α}
    (h : ∀ a ∈ l, f a = g a) : l.mapM f = l.mapM g := by
  induction l with
  | nil => rfl
  | cons a l ih =>
    obtain ⟨ha, hl⟩ := List.forall_mem_cons.mp h
    rw [List.mapM_cons, List.mapM_cons, ha, ih hl]

/-- All failures have the property. -/
def FailsOnly (P : ε → Prop) (x : Except ε α) : Prop := ∀ e, x = .error e → P e

variable {P : ε → Prop}

theorem failsOnly_ok (a : α) : FailsOnly P (.ok a) := fun _ h => nomatch h

theorem failsOnly_error {e : ε} (h : P e) : FailsOnly P (.error e : Except ε α) := by
  rintro _ ⟨⟩
  exact h

namespace FailsOnly

theorem bind {x : Except ε α} {f : α → Except ε β} (hx : FailsOnly P x)
    (hf : ∀ a, x = .ok a → FailsOnly P (f a)) : FailsOnly P (x >>= f) := by
  cases x with
  | error e => exact fun e' h => hx e' (by cases h; rfl)
  | ok a => exact hf a rfl

theorem mapM {f : α → Except ε β} {l : List α} (h : ∀ a ∈ l, FailsOnly P (f a)) :
    FailsOnly P (l.mapM f) := by
  induction l with
  | nil => exact failsOnly_ok []
  | cons a l ih =>
    obtain ⟨ha, hl⟩ := List.forall_mem_cons.mp h
    rw [List.mapM_cons]
    exact ha.bind fun b _ => (ih hl).bind fun bs _ => failsOnly_ok (b :: bs)

theorem mapError {Q : ε' → Prop} {f : ε → ε'} {x : Except ε α}
    (h : FailsOnly (fun e => Q (f e)) x) : FailsOnly Q (x.mapError f) := by
  cases x with
  | error e => exact failsOnly_error (h e rfl)
  | ok a => exact failsOnly_ok a

end FailsOnly

end

end Multimeter
