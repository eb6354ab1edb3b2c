import JobRunner.Lib.Page
import JobRunner.Jobctl.PickByName

/-!
# A customer by name, from a page of them (`jobctl::qbo`)

Where the address does not settle it, `resolve_customer` picks among what `customers_by_name`
returns: at most 25 of the customers whose name contains the CRM name. Uniqueness on that page
is not uniqueness among them all.

- `ServesCustomers`: a service with a list of customers.
- `PageSettles`: the lists for which every page tells what the whole list does.
- `resolveCustomer_complete_iff`: exactly these are resolved as from the whole list.
-/

open Text

namespace JobRunner.Jobctl

variable (P : Platform)

/-- `maxresults` of `customers_by_name`. -/
def maxMatches : Nat := 25

/-- The service answers the name query with a page of the customers that match. -/
def ServesCustomers (answers : Request → Answer) (name : String) (all page : List QboCustomer) :
    Prop :=
  Page maxMatches all page ∧
    ∃ payload, readAnswer P (.query (.customersByName name))
        (answers (.query (.customersByName name))) = .ok payload ∧
      (entities payload "Customer").map (QboCustomer.parse P) = page.map some

/-- The email part of `resolve_customer` finds nobody. -/
def FallsThrough (answers : Request → Answer) (email : String) : Prop :=
  (customerByEmail P email).eval answers = .ok none

/-- None of the customers passes the test, or all but at most 23 do. -/
def Settled (all : List QboCustomer) (test : QboCustomer → Bool) : Prop :=
  all.countP test = 0 ∨ all.length < all.countP test + 24

/-- Every page tells what the whole list does. -/
def PageSettles (all : List QboCustomer) (name email : String) : Prop :=
  all.length ≤ maxMatches ∨
    Settled all (exactName P name) ∧ Settled all (exactBoth P name email) ∧
      Settled all (sameEmail P email)

/-- A service that knows nobody by address, and answers names with this page. -/
def pageServer (encode : QboCustomer → Json) (page : List QboCustomer) : Request → Answer
  | .query (.customersByName _) => .queried "Customer" (page.map encode)
  | _ => .queried "Customer" []

variable {P} {answers : Request → Answer} {name email : String} {all page : List QboCustomer}

/-! ## What is resolved -/

theorem eval_customersByName (h : ServesCustomers P answers name all page) :
    (customersByName P name).eval answers = .ok page := by
  obtain ⟨-, payload, hpayload, hparsed⟩ := h
  have hpage : (entities payload "Customer").filterMap (QboCustomer.parse P) = page := by
    calc (entities payload "Customer").filterMap (QboCustomer.parse P)
        = ((entities payload "Customer").map (QboCustomer.parse P)).filterMap id := by
          rw [List.filterMap_map, Function.id_comp]
      _ = (page.map some).filterMap id := by rw [hparsed]
      _ = page := by rw [List.filterMap_map, Function.id_comp, List.filterMap_some]
  simp only [customersByName, runQuery, Dialogue.eval_bind, eval_get, hpayload, Except.bind_ok,
    hpage, Dialogue.eval_pure]

/-- The pick is made from the page, which is all that the code sees of the customers
that match. -/
theorem eval_resolveCustomer (hname : name ≠ "") (hfall : FallsThrough P answers email)
    (hserves : ServesCustomers P answers name all page) :
    (resolveCustomer P name email).eval answers =
      .ok ((pickByName P page name email).map fun id => (id, "name")) := by
  simp only [resolveCustomer, Dialogue.eval_bind, show _ = _ from hfall, Except.bind_ok,
    if_neg hname, eval_customersByName hserves, Dialogue.eval_pure]

theorem pageServer_fallsThrough (encode : QboCustomer → Json) (page : List QboCustomer)
    (email : String) : FallsThrough P (pageServer encode page) email := by
  unfold FallsThrough customerByEmail
  split
  · rfl
  · obtain ⟨payload, hread, hitems⟩ :=
      readAnswer_queried P (.query (.customersByEmail email)) "Customer" []
    simp only [runQuery, Dialogue.eval_bind, eval_get, pageServer, hread, Except.bind_ok, hitems,
      Dialogue.eval_pure]
    rfl

theorem pageServer_serves {encode : QboCustomer → Json}
    (hencode : ∀ c ∈ all, QboCustomer.parse P (encode c) = some c) (name : String)
    (hpage : Page maxMatches all page) :
    ServesCustomers P (pageServer encode page) name all page := by
  obtain ⟨payload, hread, hitems⟩ := readAnswer_queried P (.query (.customersByName name))
    "Customer" (page.map encode)
  refine ⟨hpage, payload, hread, ?_⟩
  rw [hitems, List.map_map]
  refine List.map_congr_left fun c hc => ?_
  exact hencode c (hpage.part.subset hc)

/-! ## A page and the whole list -/

/-- On a page of a settled long list no test has exactly one customer: none passes,
or so many that any page has two of them. -/
theorem not_picked_of_settled (hlong : maxMatches < all.length) (hpage : Page maxMatches all page)
    (hname : Settled all (exactName P name)) (hboth : Settled all (exactBoth P name email))
    (hemail : Settled all (sameEmail P email)) (c : QboCustomer) :
    ¬ Picked P page name email c := by
  have hne : ∀ {test}, Settled all test → page.filter test ≠ [c] := by
    intro test hsettled hone
    refine (Page.countP_ne_one_iff (k := 24) hlong.le).mpr hsettled page hpage ?_
    rw [List.countP_eq_length_filter, hone, List.length_singleton]
  rintro (h | h | h | h)
  · exact hne hname h
  · exact hne hboth h
  · exact hne hemail h
  · have hlength := hpage.length_eq hlong.le
    rw [h] at hlength
    cases hlength

/-- Of a settled long list, nobody is the only one either. -/
theorem not_picked_of_settled_all (hlong : maxMatches < all.length)
    (hname : Settled all (exactName P name)) (hboth : Settled all (exactBoth P name email))
    (hemail : Settled all (sameEmail P email)) (c : QboCustomer) :
    ¬ Picked P all name email c := by
  have hne : ∀ {test}, Settled all test → all.filter test ≠ [c] := by
    intro test hsettled hone
    have hcount : all.countP test = 1 := by
      rw [List.countP_eq_length_filter, hone, List.length_singleton]
    unfold Settled at hsettled
    unfold maxMatches at hlong
    omega
  rintro (h | h | h | h)
  · exact hne hname h
  · exact hne hboth h
  · exact hne hemail h
  · rw [h, List.length_singleton] at hlong
    exact absurd hlong (by decide)

theorem pickByName_eq_none (h : ∀ c, ¬ Picked P all name email c) :
    pickByName P all name email = none := by
  rw [← Option.not_isSome_iff_eq_none, pickByName_isSome_iff]
  rintro ⟨c, hc⟩
  exact h c hc

/-- Where pages settle it, every page gives what the whole list gives. A list that
fits on a page is its page, and on a longer one nothing is picked. -/
theorem pickByName_page (hsettles : PageSettles P all name email)
    (hpage : Page maxMatches all page) :
    pickByName P page name email = pickByName P all name email := by
  by_cases hlong : maxMatches < all.length
  · rcases hsettles with hshort | ⟨hname, hboth, hemail⟩
    · omega
    · rw [pickByName_eq_none (not_picked_of_settled hlong hpage hname hboth hemail),
        pickByName_eq_none (not_picked_of_settled_all hlong hname hboth hemail)]
  · exact pickByName_perm (hpage.perm (by omega))

/-- Where they do not, some page misleads: it lacks the customer to pick, or makes
one out as the only one. The page is built by choosing who is left out. -/
theorem exists_misleading_page (hids : (all.map QboCustomer.id).Nodup)
    (hsettles : ¬ PageSettles P all name email) :
    ∃ page, Page maxMatches all page ∧
      pickByName P page name email ≠ pickByName P all name email := by
  have hlong : maxMatches < all.length := by
    by_contra hshort
    exact hsettles (.inl (by omega))
  rcases hpick : pickByName P all name email with _ | id
  · -- a page with one customer of a kind that is not settled
    have hsingle : ∀ {test}, ¬ Settled all test →
        ∃ page c, Page maxMatches all page ∧ page.filter test = [c] := by
      intro test hunsettled
      have hpages := (Page.countP_ne_one_iff (k := 24) (p := test) hlong.le).not.mpr hunsettled
      push Not at hpages
      obtain ⟨page, hpage, hcount⟩ := hpages
      rw [List.countP_eq_length_filter, List.length_eq_one_iff] at hcount
      obtain ⟨c, hc⟩ := hcount
      exact ⟨page, c, hpage, hc⟩
    obtain ⟨page, c, hpage, hpicked⟩ :
        ∃ page c, Page maxMatches all page ∧ Picked P page name email c := by
      by_contra hnone
      push Not at hnone
      refine hsettles (.inr ⟨?_, ?_, ?_⟩) <;> by_contra hunsettled <;>
        obtain ⟨page, c, hpage, hc⟩ := hsingle hunsettled
      · exact hnone page c hpage (.byName hc)
      · exact hnone page c hpage (.byBoth hc)
      · exact hnone page c hpage (.byEmail hc)
    have hsome := pickByName_isSome_iff.mpr ⟨c, hpicked⟩
    refine ⟨page, hpage, fun hnone => ?_⟩
    rw [hnone] at hsome
    cases hsome
  · -- a page without the customer that the whole list gives
    obtain ⟨c, hid, hpicked⟩ := picked_of_pickByName hpick
    obtain ⟨page, hpage, hmissing⟩ := Page.exists_without (a := c) (hids.of_map _) hlong
    refine ⟨page, hpage, fun hsame => ?_⟩
    obtain ⟨c', hid', hpicked'⟩ := picked_of_pickByName hsame
    have hc' : c' = c :=
      List.inj_on_of_nodup_map hids (hpage.part.subset hpicked'.mem) hpicked.mem
        (hid'.trans hid.symm)
    exact hmissing (hc' ▸ hpicked'.mem)

/-- **Resolving from a page.** Of customers that the service can send, with ids of their own,
every page gives the answer of the complete list exactly where at most 25 match, or where for
each test none of them passes, or all but at most 23 do. -/
theorem resolveCustomer_complete_iff (hname : name ≠ "") (hids : (all.map QboCustomer.id).Nodup)
    (hsent : ∀ c ∈ all, ∃ raw, QboCustomer.parse P raw = some c) :
    (∀ answers page, FallsThrough P answers email → ServesCustomers P answers name all page →
      (resolveCustomer P name email).eval answers =
        .ok ((pickByName P all name email).map fun id => (id, "name"))) ↔
      PageSettles P all name email := by
  constructor
  · intro h
    by_contra hsettles
    -- a server that sends the misleading page
    obtain ⟨page, hpage, hmisleads⟩ := exists_misleading_page hids hsettles
    have : Nonempty Json := ⟨.null⟩
    choose! encode hencode using hsent
    have hserves := pageServer_serves hencode name hpage
    have hfall := pageServer_fallsThrough (P := P) encode page email
    have hsame := h _ page hfall hserves
    rw [eval_resolveCustomer hname hfall hserves, Except.ok.injEq] at hsame
    refine hmisleads (Option.map_injective (fun a b hab => ?_) hsame)
    exact (Prod.mk.inj hab).1
  · intro hsettles answers page hfall hserves
    rw [eval_resolveCustomer hname hfall hserves, pickByName_page hsettles hserves.1]

/-- A customer without an address, as it is sent. -/
def customerJson (c : QboCustomer) : Json :=
  .obj [("Id", .str c.id), ("DisplayName", .str c.displayName)]

theorem parse_customerJson {c : QboCustomer} (hid : trim c.id ≠ "")
    (hname : trim c.displayName ≠ "") (hemail : c.email = none) :
    QboCustomer.parse P (customerJson c) = some c := by
  obtain ⟨id, displayName, email⟩ := c
  cases hemail
  simp [QboCustomer.parse, customerJson, text, Json.index, Json.get?, Json.members, hid, hname]

/-- Two customers are called Acme, up to case; 24 more have it in their names. -/
def acmes : List QboCustomer :=
  ⟨"1", "Acme", none⟩ :: ⟨"2", "ACME", none⟩ ::
    (List.range 24).map fun i => ⟨toString (i + 3), "Acme " ++ toString i, none⟩

theorem parse_acmes :
    ∀ c ∈ acmes, QboCustomer.parse wholePlatform (customerJson c) = some c := by
  have hall : ∀ c ∈ acmes, trim c.id ≠ "" ∧ trim c.displayName ≠ "" ∧ c.email = none := by
    decide +kernel
  intro c hc
  obtain ⟨hid, hname, hemail⟩ := hall c hc
  exact parse_customerJson hid hname hemail

/-- The two Acmes alone are on every page, and nothing tells them apart. -/
theorem two_acmes_unresolved :
    (resolveCustomer wholePlatform "Acme" "").eval (pageServer customerJson (acmes.take 2)) =
      .ok none := by
  have hparse : ∀ c ∈ acmes.take 2, QboCustomer.parse wholePlatform (customerJson c) = some c :=
    fun c hc => parse_acmes c (List.mem_of_mem_take hc)
  have hpage : Page maxMatches (acmes.take 2) (acmes.take 2) :=
    ⟨(List.Sublist.refl _).subperm, by decide +kernel⟩
  have hsettles : PageSettles wholePlatform (acmes.take 2) "Acme" "" := .inl (by decide +kernel)
  have hpick : pickByName wholePlatform (acmes.take 2) "Acme" "" = none := by decide +kernel
  have hresolved := (resolveCustomer_complete_iff (by decide) (by decide +kernel)
    fun c hc => ⟨customerJson c, hparse c hc⟩).mpr hsettles _ _
      (pageServer_fallsThrough customerJson (acmes.take 2) "")
      (pageServer_serves hparse "Acme" hpage)
  rw [hresolved, hpick]
  rfl

/-- A page without the second makes the first out as the only one. -/
theorem acme_taken_as_unique :
    ∃ answers page, FallsThrough wholePlatform answers "" ∧
      ServesCustomers wholePlatform answers "Acme" acmes page ∧
      (acmes.map QboCustomer.id).Nodup ∧
      (resolveCustomer wholePlatform "Acme" "").eval answers = .ok (some ("1", "name")) ∧
      pickByName wholePlatform acmes "Acme" "" = none := by
  have hpage : Page maxMatches acmes (acmes.eraseIdx 1) :=
    ⟨(List.eraseIdx_sublist acmes 1).subperm, by decide +kernel⟩
  have hserves := pageServer_serves parse_acmes "Acme" hpage
  have hfall := pageServer_fallsThrough (P := wholePlatform) customerJson (acmes.eraseIdx 1) ""
  have hpick : pickByName wholePlatform (acmes.eraseIdx 1) "Acme" "" = some "1" := by
    decide +kernel
  refine ⟨_, _, hfall, hserves, by decide +kernel, ?_, by decide +kernel⟩
  rw [eval_resolveCustomer (by decide) hfall hserves, hpick]
  rfl

end JobRunner.Jobctl
