import JobRunner.Jobctl.Customers

/-!
# Picking a customer by name (`jobctl::qbo`)

`pick_by_name` takes a customer only where exactly one passes a test: of those with the
exact name, of those with the name and the address, of those with the address, or of all.

- `exactName`, `sameEmail`: the tests.
- `Picked`: the customer is the only one that passes one of them.
- `pickByName_eq`: the four tiers.
- `pickByName_isSome_iff`: an id is returned exactly when there is such a customer.
- `never_guesses`: the order of the list plays no part, and only such a customer is returned.
-/

open Text

namespace JobRunner.Jobctl

/-! ## The only element of a list -/

section Only

variable {α : Type} {l l' : List α} {a : α}

/-- A customer is picked by a test only if the list of those that pass has exactly
this one. -/
theorem only_eq_some_iff : only l = some a ↔ l = [a] := by
  match l with
  | [] => simp [only]
  | [_] => simp [only]
  | _ :: _ :: _ => simp [only]

theorem only_eq_none_iff : only l = none ↔ l.length ≠ 1 := by
  match l with
  | [] => simp [only]
  | [_] => simp [only]
  | _ :: _ :: _ => simp [only]

theorem only_perm (h : l.Perm l') : only l = only l' := by
  refine Option.ext fun a => ?_
  rw [only_eq_some_iff, only_eq_some_iff]
  constructor
  · rintro rfl
    exact List.perm_singleton.mp h.symm
  · rintro rfl
    exact List.perm_singleton.mp h

end Only

variable (P : Platform)

/-! ## The tests -/

/-- `key(&c.display_name) == name_key`. -/
def exactName (name : String) (c : QboCustomer) : Bool :=
  P.toLowercase (trim c.displayName) = P.toLowercase (trim name)

/-- `same_email`. -/
def sameEmail (email : String) (c : QboCustomer) : Bool :=
  P.toLowercase (trim email) ≠ "" &&
    c.email.map (fun value => P.toLowercase (trim value)) = some (P.toLowercase (trim email))

/-- Both. -/
def exactBoth (name email : String) (c : QboCustomer) : Bool :=
  exactName P name c && sameEmail P email c

/-- The customer is the only one of the list that passes a test. -/
inductive Picked (candidates : List QboCustomer) (name email : String) (c : QboCustomer) : Prop
  | byName : candidates.filter (exactName P name) = [c] → Picked candidates name email c
  | byBoth : candidates.filter (exactBoth P name email) = [c] → Picked candidates name email c
  | byEmail : candidates.filter (sameEmail P email) = [c] → Picked candidates name email c
  | single : candidates = [c] → Picked candidates name email c

variable {P} {candidates : List QboCustomer} {name email : String} {c : QboCustomer}

theorem Picked.mem (h : Picked P candidates name email c) : c ∈ candidates := by
  have hself : c ∈ [c] := List.mem_singleton_self c
  cases h with
  | byName h => exact (List.mem_filter.mp (h ▸ hself)).1
  | byBoth h => exact (List.mem_filter.mp (h ▸ hself)).1
  | byEmail h => exact (List.mem_filter.mp (h ▸ hself)).1
  | single h => exact h ▸ hself

/-! ## The tiers -/

/-- The second tier needs no look at the first: a customer who is the only one with
name and address is picked there if the name alone has not picked. So the tiers are
independent tests, tried in order. -/
theorem pickByName_eq (candidates : List QboCustomer) (name email : String) :
    pickByName P candidates name email =
      (((only (candidates.filter (exactName P name))).or
          (if 1 < (candidates.filter (exactName P name)).length then
            only (candidates.filter (exactBoth P name email)) else none)).or
        ((only (candidates.filter (sameEmail P email))).or (only candidates))).map
          QboCustomer.id := by
  have hboth : candidates.filter (exactBoth P name email) =
      (candidates.filter (exactName P name)).filter (sameEmail P email) := by
    rw [List.filter_filter]
    refine List.filter_congr fun c _ => ?_
    exact Bool.and_comm _ _
  rw [hboth]
  rfl

/-- The order of the candidates plays no part, as every tier counts. -/
theorem pickByName_perm {candidates' : List QboCustomer} (h : candidates.Perm candidates') :
    pickByName P candidates name email = pickByName P candidates' name email := by
  rw [pickByName_eq, pickByName_eq, only_perm (h.filter (exactName P name)),
    only_perm (h.filter (exactBoth P name email)), only_perm (h.filter (sameEmail P email)),
    only_perm h, (h.filter (exactName P name)).length_eq]

theorem pickByName_of_exact (h : candidates.filter (exactName P name) = [c]) :
    pickByName P candidates name email = some c.id := by
  rw [pickByName_eq, h]
  rfl

theorem picked_of_pickByName {id : String}
    (h : pickByName P candidates name email = some id) :
    ∃ c, c.id = id ∧ Picked P candidates name email c := by
  rw [pickByName_eq, Option.map_eq_some_iff] at h
  obtain ⟨c, hc, rfl⟩ := h
  refine ⟨c, rfl, ?_⟩
  rcases Option.or_eq_some_iff.mp hc with hname | ⟨-, hrest⟩
  · rcases Option.or_eq_some_iff.mp hname with hexact | ⟨-, hboth⟩
    · exact .byName (only_eq_some_iff.mp hexact)
    · split at hboth
      · exact .byBoth (only_eq_some_iff.mp hboth)
      · cases hboth
  · rcases Option.or_eq_some_iff.mp hrest with hemail | ⟨-, hsingle⟩
    · exact .byEmail (only_eq_some_iff.mp hemail)
    · exact .single (only_eq_some_iff.mp hsingle)

/-- Where no tier picks, no test has exactly one customer. Each tier that is passed
over leaves this behind. -/
theorem not_picked_of_pickByName_none (h : pickByName P candidates name email = none) :
    ¬ Picked P candidates name email c := by
  rw [pickByName_eq, Option.map_eq_none_iff, Option.or_eq_none_iff, Option.or_eq_none_iff,
    Option.or_eq_none_iff] at h
  obtain ⟨⟨hname, hboth⟩, hemail, hsingle⟩ := h
  rintro (hc | hc | hc | hc)
  · rw [hc] at hname
    cases hname
  · -- the customer has the exact name, and not as the only one
    have hmem : c ∈ candidates.filter (exactName P name) := by
      have hc' : c ∈ candidates.filter (exactBoth P name email) := hc ▸ List.mem_singleton_self c
      obtain ⟨hcand, htest⟩ := List.mem_filter.mp hc'
      exact List.mem_filter.mpr ⟨hcand, (Bool.and_eq_true_iff.mp htest).1⟩
    have hpos := List.length_pos_of_mem hmem
    have hne := only_eq_none_iff.mp hname
    rw [if_pos (by omega), hc] at hboth
    cases hboth
  · rw [hc] at hemail
    cases hemail
  · rw [hc] at hsingle
    cases hsingle

theorem pickByName_isSome_iff :
    (pickByName P candidates name email).isSome = true ↔
      ∃ c, Picked P candidates name email c := by
  rw [Option.isSome_iff_exists]
  constructor
  · rintro ⟨id, h⟩
    obtain ⟨c, -, hpicked⟩ := picked_of_pickByName h
    exact ⟨c, hpicked⟩
  · rintro ⟨c, hpicked⟩
    rcases h : pickByName P candidates name email with _ | id
    · exact absurd hpicked (not_picked_of_pickByName_none h)
    · exact ⟨id, rfl⟩

variable (P)

/-- **No guessing among equals.** The order of the list plays no part; the id is that of a
customer who is the only one with the exact name, with the name and the address, with the
address, or at all; and the only one with the exact name is always returned. -/
theorem never_guesses (name email : String) :
    (∀ candidates candidates' : List QboCustomer, candidates.Perm candidates' →
      pickByName P candidates name email = pickByName P candidates' name email) ∧
    (∀ candidates id, pickByName P candidates name email = some id →
      ∃ c ∈ candidates, c.id = id ∧ Picked P candidates name email c) ∧
    ∀ candidates c, candidates.filter (exactName P name) = [c] →
      pickByName P candidates name email = some c.id := by
  refine ⟨fun _ _ h => pickByName_perm h, fun candidates id h => ?_,
    fun _ _ h => pickByName_of_exact h⟩
  obtain ⟨c, hid, hpicked⟩ := picked_of_pickByName h
  exact ⟨c, hpicked.mem, hid, hpicked⟩

end JobRunner.Jobctl
