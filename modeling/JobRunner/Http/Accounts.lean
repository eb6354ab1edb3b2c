import JobRunner.Http.Service

/-!
# What the API tells its clients (`http.rs`)

An account of all requests that the daemon has served: which rows they have inserted, and what
their answers were. An answer fits the history of the table up to some moment between the
arrival of the request and the answer.

- `Arrived`, `postedBy`: what a request asked for, and the rows it has inserted.
- `Handled`, `handled_run`: what a request has done, from where it stands.
- `posted_unique`: no two requests have inserted one row.
- `Handled.created`, `Handled.posted_nil`, `Handled.shown`: what an answer says.
- `service_accounts`: every row and every answer, along every run.
-/

open Text Keyed Transition

namespace JobRunner.Http

open Jobctl (viewJson respond ViewPc ViewTells)

/-! ## One request -/

section Request

variable {ρ ω : Type} [DecidableEq ρ] [DecidableEq ω]
  {parse : List UInt8 → Except String CreateJob} {r : ρ} {evs evs' : List (HttpEvent ρ ω)}

/-- What request `r` asks for, once it has arrived. -/
def Arrived (r : ρ) (evs : List (HttpEvent ρ ω)) (req : HttpRequest) : Prop :=
  (Sessions.trace r evs).head? = some (.inr (.arrive req))

/-- The row that a move inserts. -/
def insertedRow : FleetEvent ω ⊕ HttpPc.Label → Option Int
  | .inl (.insert _ _ answer) => insertedId answer
  | .inl _ | .inr _ => none

/-- The rows that request `r` has inserted. -/
def postedBy (r : ρ) (evs : List (HttpEvent ρ ω)) : List Int :=
  (Sessions.trace r evs).filterMap insertedRow

/-- More has happened, and request `r` has inserted no further row. -/
structure Continues (r : ρ) (evs evs' : List (HttpEvent ρ ω)) : Prop where
  arrived {req : HttpRequest} : Arrived r evs req → Arrived r evs' req
  posted : postedBy r evs' = postedBy r evs
  events : Sessions.events evs ⊆ Sessions.events evs'

omit [DecidableEq ω] in
theorem continues_other {ev : HttpEvent ρ ω} (h : ev.owner ≠ some r) :
    Continues r evs (evs ++ [ev]) := by
  have htrace := Sessions.trace_other evs h
  refine ⟨?_, ?_, Sessions.events_subset_snoc evs ev⟩
  · unfold Arrived
    rw [htrace]
    exact id
  · rw [postedBy, htrace, postedBy]

omit [DecidableEq ω] in
theorem continues_own (d : HttpPc.Label) : Continues r evs (evs ++ [.own r d]) := by
  refine ⟨?_, ?_, Sessions.events_subset_snoc evs _⟩
  · intro req h
    rw [Arrived, Sessions.trace_own, List.head?_append, h]
    rfl
  · rw [postedBy, Sessions.trace_own, List.filterMap_append]
    exact List.append_nil _

omit [DecidableEq ω] in
theorem arrived_act {req : HttpRequest} {e : FleetEvent ω} (h : Arrived r evs req) :
    Arrived r (evs ++ [.act r e]) req := by
  rw [Arrived, Sessions.trace_act, List.head?_append, h]
  rfl

omit [DecidableEq ω] in
theorem postedBy_insert (chatId : Int) (content : String) (answer : Except StoreError Int) :
    postedBy r (evs ++ [.act r (.insert chatId content answer)]) =
      postedBy r evs ++ (insertedId answer).toList := by
  rw [postedBy, Sessions.trace_act, List.filterMap_append]
  cases answer <;> rfl

/-- What request `r` has inserted: nothing, or the row it asked for. -/
inductive Posts (parse : List UInt8 → Except String CreateJob) (r : ρ)
    (evs : List (HttpEvent ρ ω)) : List Int → Prop where
  | none : Posts parse r evs []
  | row (req : HttpRequest) (create : CreateJob) (id : Int) (harrived : Arrived r evs req)
      (hcreates : Creates parse req create)
      (hinserted : .insert create.chatId create.content (.ok id) ∈ Sessions.events evs) :
      Posts parse r evs [id]

/-- Request `r` wants to see job `id`, with the status `code`: it asked for it, or it has
inserted it. -/
inductive Asks (parse : List UInt8 → Except String CreateJob) (r : ρ)
    (evs : List (HttpEvent ρ ω)) : Nat → Int → Prop where
  | get (req : HttpRequest) (id : Int) (harrived : Arrived r evs req) (hgets : Gets req id)
      (hposted : postedBy r evs = []) : Asks parse r evs 200 id
  | post (req : HttpRequest) (create : CreateJob) (id : Int) (harrived : Arrived r evs req)
      (hcreates : Creates parse req create) (hposted : postedBy r evs = [id])
      (hinserted : .insert create.chatId create.content (.ok id) ∈ Sessions.events evs) :
      Asks parse r evs 201 id

omit [DecidableEq ω] in
theorem Posts.continues {ids : List Int} (h : Posts parse r evs ids)
    (hmore : Continues r evs evs') : Posts parse r evs' ids := by
  cases h with
  | none => exact .none
  | row req create id harrived hcreates hinserted =>
    exact .row req create id (hmore.arrived harrived) hcreates (hmore.events hinserted)

omit [DecidableEq ω] in
theorem Asks.continues {code : Nat} {id : Int} (h : Asks parse r evs code id)
    (hmore : Continues r evs evs') : Asks parse r evs' code id := by
  cases h with
  | get req id harrived hgets hposted =>
    exact .get req id (hmore.arrived harrived) hgets (hmore.posted.trans hposted)
  | post req create id harrived hcreates hposted hinserted =>
    exact .post req create id (hmore.arrived harrived) hcreates (hmore.posted.trans hposted)
      (hmore.events hinserted)

omit [DecidableEq ω] in
theorem Asks.posts {code : Nat} {id : Int} (h : Asks parse r evs code id) :
    Posts parse r evs (postedBy r evs) := by
  cases h with
  | get req id harrived hgets hposted =>
    rw [hposted]
    exact .none
  | post req create id harrived hcreates hposted hinserted =>
    rw [hposted]
    exact .row req create id harrived hcreates hinserted

/-- What request `r` has done, from where it stands; what it answers fits the history up to a
moment at which it had arrived. -/
inductive Handled (parse : List UInt8 → Except String CreateJob) (r : ρ)
    (evs : List (HttpEvent ρ ω)) (db : Database) : HttpPc → Prop where
  | idle (hnone : Sessions.trace r evs = []) : Handled parse r evs db .idle
  | insert (req : HttpRequest) (create : CreateJob) (harrived : Arrived r evs req)
      (hcreates : Creates parse req create) (hposted : postedBy r evs = []) :
      Handled parse r evs db (.insert create)
  | view (code : Nat) (id : Int) (view : ViewPc) (hasks : Asks parse r evs code id)
      (hreading : Reading (Sessions.events evs) db id view) :
      Handled parse r evs db (.view code id view)
  | refused (req : HttpRequest) (response : Jobctl.Response) (harrived : Arrived r evs req)
      (hroute : route parse req = .ended response) (hposted : postedBy r evs = []) :
      Handled parse r evs db (.ended response)
  | failed (source : StoreError) (hposts : Posts parse r evs (postedBy r evs)) :
      Handled parse r evs db (.ended (errorResponse (.store source)))
  | absent (id : Int) (us vs : List (HttpEvent ρ ω)) (hsplit : evs = us ++ vs)
      (hasks : Asks parse r us 200 id) (hposted : postedBy r evs = [])
      (hnone : ∀ chatId content, .insert chatId content (.ok id) ∉ Sessions.events us) :
      Handled parse r evs db (.ended (errorResponse .notFound))
  | answered (code : Nat) (id : Int) (v : JobView) (us vs : List (HttpEvent ρ ω))
      (hsplit : evs = us ++ vs) (hthen : Asks parse r us code id)
      (hasks : Asks parse r evs code id) (hid : v.job.id = id)
      (htells : Tells (Sessions.events us) id v) :
      Handled parse r evs db (.ended (respond code (.ok v)))
  | dropped (hposts : Posts parse r evs (postedBy r evs)) : Handled parse r evs db .dropped

/-! ## The moves of a request -/

variable {x : Fleet ω × (ρ → HttpPc)} {s t : Fleet ω} {k k' : HttpPc}

omit [DecidableEq ω] in
/-- Whatever else happens keeps what a request has done, if it keeps the view in
progress: what a request has done is about its own history, which others only
lengthen. -/
theorem Handled.continues {db' : Database} (h : Handled parse r evs s.db k)
    (hmore : Continues r evs evs') (hidle : k = .idle → Sessions.trace r evs' = [])
    (hpre : evs <+: evs')
    (hreading : ∀ {id view}, Reading (Sessions.events evs) s.db id view →
      Reading (Sessions.events evs') db' id view) : Handled parse r evs' db' k := by
  have hposts {ids : List Int} (hposts : Posts parse r evs ids) : Posts parse r evs' ids :=
    hposts.continues hmore
  cases h with
  | idle hnone => exact .idle (hidle rfl)
  | insert req create harrived hcreates hposted =>
    exact .insert req create (hmore.arrived harrived) hcreates (hmore.posted.trans hposted)
  | view code id view hasks hview =>
    exact .view code id view (hasks.continues hmore) (hreading hview)
  | refused req response harrived hroute hposted =>
    exact .refused req response (hmore.arrived harrived) hroute (hmore.posted.trans hposted)
  | failed source h => exact .failed source (hmore.posted ▸ hposts h)
  | absent id us vs hsplit hasks hposted hnone =>
    obtain ⟨ws, rfl⟩ := hpre
    exact .absent id us (vs ++ ws) (by rw [hsplit, List.append_assoc]) hasks
      (hmore.posted.trans hposted) hnone
  | answered code id v us vs hsplit hthen hasks hid htells =>
    obtain ⟨ws, rfl⟩ := hpre
    exact .answered code id v us (vs ++ ws) (by rw [hsplit, List.append_assoc]) hthen
      (hasks.continues hmore) hid htells
  | dropped h => exact .dropped (hmore.posted ▸ hposts h)

/-- The moves of all others. They write in the table and not in the history of the
request, and no job it is about disappears. -/
theorem Handled.other {ks ks' : ρ → HttpPc} {ev : HttpEvent ρ ω}
    (hrun : ServiceRun parse x evs (s, ks)) (hheld : x.1.HeldJobs)
    (hstep : Sessions.Step Fleet.Step HttpPc.Act (HttpPc.Own parse) (s, ks) ev (t, ks'))
    (hother : ev.owner ≠ some r) (h : Handled parse r evs s.db (ks r)) :
    Handled parse r (evs ++ [ev]) t.db (ks r) := by
  have hidle : ks r = .idle → Sessions.trace r (evs ++ [ev]) = [] := by
    intro hk
    rw [Sessions.trace_other evs hother]
    rw [hk] at h
    cases h with
    | idle hnone => exact hnone
  refine h.continues (continues_other hother) hidle (List.prefix_append _ _) ?_
  intro id view hreading
  have hfleet := Sessions.run_system hrun
  have hsystem := hstep.system_step
  rw [Sessions.events_snoc]
  cases hshared : ev.shared with
  | none =>
    rw [hshared] at hsystem
    obtain rfl : t = s := hsystem
    rw [Option.toList_none, List.append_nil]
    exact hreading
  | some e =>
    rw [hshared] at hsystem
    exact hreading.step hfleet hheld hsystem

omit [DecidableEq ω] in
/-- The `INSERT` of a request, the only move of a request that writes. Its answer
says which row it was, or nothing. -/
theorem Handled.act {e : FleetEvent ω} (hact : HttpPc.Act k e k')
    (h : Handled parse r evs s.db k) : Handled parse r (evs ++ [.act r e]) t.db k' := by
  -- the row of the request, if there is one now
  have hposts {req : HttpRequest} {create : CreateJob} (answer : Except StoreError Int)
      (harrived : Arrived r evs req) (hcreates : Creates parse req create)
      (hposted : postedBy r evs = []) :
      Posts parse r (evs ++ [.act r (.insert create.chatId create.content answer)])
        (postedBy r (evs ++ [.act r (.insert create.chatId create.content answer)])) := by
    rw [postedBy_insert, hposted, List.nil_append]
    cases answer with
    | error source => exact .none
    | ok id =>
      refine .row req create id (arrived_act harrived) hcreates ?_
      rw [Sessions.events_snoc]
      exact List.mem_append_right _ (List.mem_singleton_self _)
  cases hact with
  | lost create answer =>
    cases h with
    | insert req _ harrived hcreates hposted =>
      exact .failed _ (hposts answer harrived hcreates hposted)
  | dropped create answer =>
    cases h with
    | insert req _ harrived hcreates hposted =>
      exact .dropped (hposts answer harrived hcreates hposted)
  | answered create answer =>
    cases h with
    | insert req _ harrived hcreates hposted =>
      cases answer with
      | error source => exact .failed source (hposts _ harrived hcreates hposted)
      | ok id =>
        refine .view 201 id .job (.post req create id (arrived_act harrived) hcreates ?_ ?_) .job
        · rw [postedBy_insert, hposted]
          rfl
        · rw [Sessions.events_snoc]
          exact List.mem_append_right _ (List.mem_singleton_self _)

/-- A request arrives, reads, fails or is dropped. None of these writes, so the
table is only looked at. -/
theorem Handled.own {ks : ρ → HttpPc} {d : HttpPc.Label}
    (hrun : ServiceRun parse x evs (s, ks)) (hheld : x.1.HeldJobs)
    (hown : HttpPc.Own parse s (ks r) d k') (h : Handled parse r evs s.db (ks r)) :
    Handled parse r (evs ++ [.own r d]) s.db k' := by
  have hmore : Continues r evs (evs ++ [.own r d]) := continues_own d
  have hposts {ids : List Int} (h : postedBy r evs = ids) (hposts : Posts parse r evs ids) :
      Posts parse r (evs ++ [.own r d]) (postedBy r (evs ++ [.own r d])) := by
    rw [hmore.posted, h]
    exact hposts.continues hmore
  have hevents : Sessions.events (evs ++ [.own r d]) = Sessions.events evs := by
    rw [Sessions.events_snoc]
    exact List.append_nil _
  generalize ks r = k at hown h
  cases hown with
  | arrive req =>
    cases h with
    | idle hnone =>
      have harrived : Arrived r (evs ++ [.own r (.arrive req)]) req := by
        rw [Arrived, Sessions.trace_own, hnone]
        rfl
      have hposted : postedBy r (evs ++ [.own r (.arrive req)]) = [] := by
        rw [hmore.posted, postedBy, hnone]
        rfl
      have hrouted := route_routed parse req
      generalize hpc : route parse req = pc at hrouted
      cases hrouted with
      | ended response => exact .refused req response harrived hpc hposted
      | create create hcreates => exact .insert req create harrived hcreates hposted
      | get id hgets => exact .view 200 id .job (.get req id harrived hgets hposted) .job
  | read code id view =>
    cases h with
    | view _ _ _ hasks hreading =>
      have hasks' := hasks.continues hmore
      have hfound := hreading.found (Sessions.run_system hrun) hheld
      unfold HttpPc.read
      generalize view.step s.db id = next at hfound
      cases hfound with
      | reply found replyId hreading' =>
        exact .view code id _ hasks' (hevents ▸ hreading')
      | view v hid htells =>
        exact .answered code id v (evs ++ [.own r .read]) [] (List.append_nil _).symm hasks' hasks'
          hid (hevents ▸ htells)
      | absent hnone =>
        cases hasks with
        | get req _ harrived hgets hposted =>
          exact .absent id (evs ++ [.own r .read]) [] (List.append_nil _).symm hasks'
            (hmore.posted.trans hposted) (hevents ▸ hnone)
        | post req create _ harrived hcreates hposted hinserted =>
          exact absurd hinserted (hnone _ _)
  | failInsert create =>
    cases h with
    | insert req _ harrived hcreates hposted => exact .failed _ (hposts hposted .none)
  | failView code id view =>
    cases h with
    | view _ _ _ hasks hreading => exact .failed _ (hposts rfl hasks.posts)
  | dropInsert create =>
    cases h with
    | insert req _ harrived hcreates hposted => exact .dropped (hposts hposted .none)
  | dropView code id view =>
    cases h with
    | view _ _ _ hasks hreading => exact .dropped (hposts rfl hasks.posts)

/-- **Run lemma.** What every request has done, and what it has answered, by
induction along the run with a lemma for each kind of move. -/
theorem handled_run {y : Fleet ω × (ρ → HttpPc)} (hrun : ServiceRun parse x evs y)
    (hheld : x.1.HeldJobs) (hidle : x.2 r = .idle) : Handled parse r evs y.1.db (y.2 r) := by
  refine Sessions.session r (P := fun evs s k => Handled parse r evs s.db k) hrun ?_ ?_ ?_ ?_
  · rw [hidle]
    exact .idle rfl
  · intro evs s ks ev t ks' hrun hstep hother h
    exact h.other hrun hheld hstep hother
  · intro evs s ks e t k hrun hstep hact h
    exact h.act hact
  · intro evs s ks d k hrun hown h
    exact h.own hrun hheld hown

/-! ## All requests -/

variable {y : Fleet ω × (ρ → HttpPc)}

omit [DecidableEq ω] in
theorem mem_postedBy_snoc {ev : HttpEvent ρ ω} {id : Int} (h : id ∈ postedBy r (evs ++ [ev])) :
    id ∈ postedBy r evs ∨ ∃ chatId content, ev = .act r (.insert chatId content (.ok id)) := by
  rw [postedBy, Sessions.trace_append, List.filterMap_append, List.mem_append] at h
  refine h.imp_right fun h => ?_
  obtain ⟨move, hmove, hrow⟩ := List.mem_filterMap.mp h
  obtain ⟨ev', hev, hof⟩ := List.mem_filterMap.mp hmove
  obtain rfl := List.mem_singleton.mp hev
  cases ev' with
  | system e => cases hof
  | own r' d =>
    obtain ⟨-, heq⟩ := Option.ite_none_right_eq_some.mp hof
    cases heq
    cases hrow
  | act r' e =>
    obtain ⟨rfl, heq⟩ := Option.ite_none_right_eq_some.mp hof
    cases heq
    cases e with
    | insert chatId content answer =>
      cases answer with
      | error source => cases hrow
      | ok id' =>
        cases hrow
        exact ⟨chatId, content, rfl⟩
    | _ => cases hrow

/-- A request that has inserted a row has inserted no other, and the row is still there. -/
theorem posted_row (hrun : ServiceRun parse x evs y) (hheld : x.1.HeldJobs)
    (hidle : x.2 r = .idle) : Posts parse r evs (postedBy r evs) := by
  have h := handled_run hrun hheld hidle
  generalize y.2 r = k at h
  cases h with
  | idle hnone =>
    rw [postedBy, hnone]
    exact .none
  | insert _ _ _ _ hposted | refused _ _ _ _ hposted | absent _ _ _ _ _ hposted =>
    rw [hposted]
    exact .none
  | view _ _ _ hasks | answered _ _ _ _ _ _ _ hasks => exact hasks.posts
  | failed _ hposts | dropped hposts => exact hposts

/-- No two requests have inserted one row: an `INSERT` answers with an id that was
not in the table, and no row is ever deleted. -/
theorem posted_unique (hrun : ServiceRun parse x evs y) (hheld : x.1.HeldJobs)
    (hidle : ∀ r, x.2 r = .idle) {r r' : ρ} {id : Int} (h : id ∈ postedBy r evs)
    (h' : id ∈ postedBy r' evs) : r = r' := by
  induction hrun with
  | nil => cases h
  | @snoc z u evs ev hrun hstep ih =>
    -- a row that is inserted now was not there before
    have hnew {r₁ r₂ : ρ} (hearlier : id ∈ postedBy r₁ evs) {chatId : Int} {content : String} :
        ev ≠ .act r₂ (.insert chatId content (.ok id)) := by
      rintro rfl
      have hsystem : Fleet.Step z.1 (.insert chatId content (.ok id)) u.1 := hstep.system_step
      have hposts := posted_row hrun hheld (hidle r₁)
      generalize postedBy r₁ evs = ids at hearlier hposts
      cases hposts with
      | none => cases hearlier
      | row req create id' _ _ hinserted =>
        obtain rfl := List.mem_singleton.mp hearlier
        obtain ⟨m, hm⟩ := inserted_told (Sessions.run_system hrun) hheld hinserted
        have habsent := (inserted_step hsystem).1
        rw [Database.jobRow_find? hm.row] at habsent
        cases habsent
    rcases mem_postedBy_snoc h with hearlier | ⟨chatId, content, rfl⟩
    · rcases mem_postedBy_snoc h' with hearlier' | ⟨chatId, content, hev⟩
      · exact ih hearlier hearlier'
      · exact absurd hev (hnew hearlier)
    · rcases mem_postedBy_snoc h' with hearlier' | ⟨chatId', content', hev⟩
      · exact absurd rfl (hnew hearlier')
      · cases hev
        rfl

/-- A request arrives once, and does nothing before, so all that it did is after the
moment it came. -/
theorem trace_before_arrival (hrun : ServiceRun parse x evs y) (hheld : x.1.HeldJobs)
    (hidle : x.2 r = .idle) {xs ys : List (HttpEvent ρ ω)} {req : HttpRequest}
    (hsplit : evs = xs ++ .own r (.arrive req) :: ys) : Sessions.trace r xs = [] := by
  subst hsplit
  obtain ⟨z, hbefore, hafter⟩ := Run.split hrun
  obtain ⟨z', hstep, -⟩ := hafter.cons_inv
  have h := handled_run hbefore hheld hidle
  cases hstep with
  | own ks _ hown =>
    dsimp only at h
    generalize ks r = k at hown h
    cases hown with
    | arrive => cases h with | idle hnone => exact hnone

omit [DecidableEq ω] in
/-- A moment at which a request has arrived comes after its arrival. -/
theorem arrived_after {xs ys us vs : List (HttpEvent ρ ω)} {req req' : HttpRequest}
    (hnone : Sessions.trace r xs = []) (hsplit : us ++ vs = xs ++ .own r (.arrive req) :: ys)
    (harrived : Arrived r us req') :
    req' = req ∧ ∃ us', us = xs ++ .own r (.arrive req) :: us' ∧ ys = us' ++ vs := by
  rcases List.append_eq_append_iff.mp hsplit with ⟨as, rfl, -⟩ | ⟨cs, rfl, hcs⟩
  · rw [Sessions.trace_append, List.append_eq_nil_iff] at hnone
    rw [Arrived, hnone.1] at harrived
    cases harrived
  cases cs with
  | nil =>
    rw [List.append_nil, Arrived, hnone] at harrived
    cases harrived
  | cons ev us' =>
    obtain ⟨rfl, rfl⟩ := List.cons_eq_cons.mp hcs
    refine ⟨?_, us', rfl, rfl⟩
    rw [Arrived, Sessions.trace_append, hnone] at harrived
    simpa [Sessions.trace, Sessions.Event.of, eq_comm] using harrived

omit [DecidableEq ω] in
/-- A `201` is the answer to a request that has inserted a row, and shows it. -/
theorem Handled.created {db : Database} {body : Json}
    (h : Handled parse r evs db (.ended ⟨201, body⟩)) :
    ∃ us vs req create id v, evs = us ++ vs ∧ Arrived r us req ∧ Creates parse req create ∧
      postedBy r us = [id] ∧ body = viewJson v ∧ v.job.chatId = create.chatId ∧
      v.job.content = create.content ∧
      ViewTells id (recordings id (Sessions.events us)) v := by
  generalize hresponse : (⟨201, body⟩ : Jobctl.Response) = response at h
  have hstatus : 201 = response.status := congrArg Jobctl.Response.status hresponse
  cases h with
  | refused req _ harrived hroute hposted =>
    have hrefused : 201 ∈ [200, 400, 404] := hstatus ▸ route_status hroute
    exact absurd hrefused (by decide)
  | failed | absent => cases hstatus
  | answered code id v us vs hsplit hthen hasks hid htells =>
    obtain rfl : 201 = code := hstatus
    cases hthen with
    | post req create _ harrived hcreates hposted hinserted =>
      obtain ⟨hchat, hcontent, hview⟩ := htells _ _ hinserted
      exact ⟨us, vs, req, create, id, v, hsplit, harrived, hcreates, hposted,
        congrArg Jobctl.Response.body hresponse, hchat, hcontent, hview⟩

omit [DecidableEq ω] in
/-- A request that is answered neither `201` nor `500` has inserted nothing. -/
theorem Handled.posted_nil {db : Database} {response : Jobctl.Response}
    (h : Handled parse r evs db (.ended response)) (hcreated : response.status ≠ 201)
    (hfailed : response.status ≠ 500) : postedBy r evs = [] := by
  cases h with
  | refused _ _ _ _ hposted | absent _ _ _ _ _ hposted => exact hposted
  | failed => exact absurd rfl hfailed
  | answered code id v us vs hsplit hthen hasks =>
    cases hasks with
    | get _ _ _ _ hposted => exact hposted
    | post => exact absurd rfl hcreated

omit [DecidableEq ω] in
/-- A request for a job that was there when the request came is shown it, or fails.
It cannot be told that there is none, since jobs do not disappear. -/
theorem Handled.shown {db : Database} {xs ys : List (HttpEvent ρ ω)} {req : HttpRequest}
    {id chatId : Int} {content : String} {response : Jobctl.Response}
    (h : Handled parse r evs db (.ended response)) (hbefore : Sessions.trace r xs = [])
    (hsplit : evs = xs ++ .own r (.arrive req) :: ys)
    (hinserted : .insert chatId content (.ok id) ∈ Sessions.events xs) (hgets : Gets req id) :
    response.status = 500 ∨
      ∃ us vs v, ys = us ++ vs ∧ response = ⟨200, viewJson v⟩ ∧ v.job.chatId = chatId ∧
        v.job.content = content ∧
        ViewTells id (recordings id (Sessions.events (xs ++ .own r (.arrive req) :: us))) v := by
  have hsince (us : List (HttpEvent ρ ω)) :
      .insert chatId content (.ok id) ∈ Sessions.events (xs ++ us) := by
    rw [Sessions.events_append]
    exact List.mem_append_left _ hinserted
  cases h with
  | refused req' _ harrived hroute hposted =>
    obtain ⟨rfl, -⟩ := arrived_after hbefore ((List.append_nil evs).trans hsplit) harrived
    rw [route_get hgets] at hroute
    cases hroute
  | failed => exact .inl rfl
  | absent id' us vs hsplit' hasks hposted habsent =>
    cases hasks with
    | get req' _ harrived hgets' =>
      obtain ⟨rfl, us', rfl, -⟩ := arrived_after hbefore (hsplit' ▸ hsplit) harrived
      obtain rfl : id = id' := Option.some.inj (hgets.path.symm.trans hgets'.path)
      exact absurd (hsince _) (habsent chatId content)
  | answered code id' v us vs hsplit' hthen hasks hid htells =>
    cases hthen with
    | get req' _ harrived hgets' =>
      obtain ⟨rfl, us', rfl, rfl⟩ := arrived_after hbefore (hsplit' ▸ hsplit) harrived
      obtain rfl : id = id' := Option.some.inj (hgets.path.symm.trans hgets'.path)
      obtain ⟨hchat, hcontent, hview⟩ := htells chatId content (hsince _)
      exact .inr ⟨us', vs, v, rfl, rfl, hchat, hcontent, hview⟩
    | post req' create _ harrived hcreates =>
      obtain ⟨rfl, -⟩ := arrived_after hbefore (hsplit' ▸ hsplit) harrived
      have hmethod := hgets.method
      rw [hcreates.method] at hmethod
      cases hmethod

/-- What the daemon has done for its clients, and what it has told them. -/
structure Accounts (parse : List UInt8 → Except String CreateJob) (evs : List (HttpEvent ρ ω))
    (y : Fleet ω × (ρ → HttpPc)) : Prop where
  /-- A request inserts one row at most, the one it asked for, and the row stays. -/
  posts : ∀ r id, id ∈ postedBy r evs → postedBy r evs = [id] ∧
    ∃ req create m, Arrived r evs req ∧ Creates parse req create ∧ y.1.db.jobRow id = some m ∧
      m.chatId = create.chatId ∧ m.content.val = create.content
  own : ∀ r r' id, id ∈ postedBy r evs → id ∈ postedBy r' evs → r = r'
  /-- A `201` shows the row the request has inserted, as it stood at some moment since. -/
  created : ∀ r body, y.2 r = .ended ⟨201, body⟩ →
    ∃ us vs req create id v, evs = us ++ vs ∧ Arrived r us req ∧ Creates parse req create ∧
      postedBy r us = [id] ∧ body = viewJson v ∧ v.job.chatId = create.chatId ∧
      v.job.content = create.content ∧ ViewTells id (recordings id (Sessions.events us)) v
  /-- No other answer but a `500` leaves a row. -/
  refused : ∀ r response, y.2 r = .ended response → response.status ≠ 201 →
    response.status ≠ 500 → postedBy r evs = []
  /-- Whoever asks for a job after its insertion is shown it, as it stood at some moment since
  the request came; the only other answer is a `500`. -/
  found : ∀ xs ys r req id chatId content response,
    evs = xs ++ .own r (.arrive req) :: ys →
    .insert chatId content (.ok id) ∈ Sessions.events xs → Gets req id →
    y.2 r = .ended response → response.status = 500 ∨
      ∃ us vs v, ys = us ++ vs ∧ response = ⟨200, viewJson v⟩ ∧ v.job.chatId = chatId ∧
        v.job.content = content ∧
        ViewTells id (recordings id (Sessions.events (xs ++ .own r (.arrive req) :: us))) v

/-- **What the API tells its clients**, whatever requests are served at once and whatever
workers and other clients of the database do meanwhile. -/
theorem service_accounts (hidle : x.1.Idle) (hnone : ∀ r, x.2 r = .idle)
    (hrun : ServiceRun parse x evs y) : Accounts parse evs y := by
  have hheld := hidle.heldJobs
  have hended {r : ρ} {response : Jobctl.Response} (hpc : y.2 r = .ended response) :
      Handled parse r evs y.1.db (.ended response) :=
    hpc ▸ handled_run hrun hheld (hnone r)
  refine ⟨?_, fun r r' id => posted_unique hrun hheld hnone,
    fun r body hpc => (hended hpc).created, fun r response hpc => (hended hpc).posted_nil, ?_⟩
  · intro r id hid
    have hposts := posted_row hrun hheld (hnone r)
    generalize postedBy r evs = ids at hid hposts
    cases hposts with
    | none => cases hid
    | row req create id' harrived hcreates hinserted =>
      obtain rfl := List.mem_singleton.mp hid
      obtain ⟨m, hm⟩ := inserted_told (Sessions.run_system hrun) hheld hinserted
      exact ⟨rfl, req, create, m, harrived, hcreates, hm.row, hm.chatId, hm.content⟩
  · intro xs ys r req id chatId content response hsplit hinserted hgets hpc
    have hbefore := trace_before_arrival hrun hheld (hnone r) hsplit
    exact (hended hpc).shown hbefore hsplit hinserted hgets

theorem route_sampleCreate :
    route sampleCreateParse ⟨.post, "/jobs", .bytes sampleCreateBody⟩ = .insert sampleCreate := by
  have hread : readJson sampleCreateParse (.bytes sampleCreateBody) = .ok sampleCreate := by
    simp [readJson, sampleCreateParse]
  have hcontent : trim sampleCreate.content ≠ "" := by decide +kernel
  simp [route, hread, hcontent]

/-- A row is inserted by one request, and another request asks for it. -/
theorem posted_and_asked : ∃ (evs : List (HttpEvent Bool Unit)) (y : Fleet Unit × (Bool → HttpPc)),
    postedBy true evs = [1] ∧ (∃ body, y.2 true = .ended ⟨201, body⟩) ∧
      (∃ body, y.2 false = .ended ⟨200, body⟩) ∧
      Accounts sampleCreateParse evs y := by
  let s₀ : Fleet Unit := Fleet.emptyFleet
  let s₁ : Fleet Unit := { s₀ with db := (s₀.db.insert 7 "Summarise README.md.").2 }
  let k₀ : Bool → HttpPc := fun _ => .idle
  let k₁ := Function.update k₀ true (.insert sampleCreate)
  let k₂ := Function.update k₁ true (.inserted (s₀.db.insert 7 "Summarise README.md.").1)
  let k₃ := Function.update k₂ true (.read s₁.db 201 1 .job)
  let k₄ := Function.update k₃ false (route sampleCreateParse ⟨.get, "/jobs/1", .bytes []⟩)
  let k₅ := Function.update k₄ false (.read s₁.db 200 1 .job)
  have harrive : HttpPc.Own sampleCreateParse s₀ .idle
      (.arrive ⟨.post, "/jobs", .bytes sampleCreateBody⟩) (.insert sampleCreate) :=
    route_sampleCreate ▸ .arrive _
  have hrun : ServiceRun sampleCreateParse (s₀, k₀) _ (s₁, k₅) :=
    Run.cons (Sessions.Step.own k₀ true harrive) <|
    Run.cons (Sessions.Step.act k₁ true (Fleet.Step.insert s₀ 7 "Summarise README.md.")
      (show HttpPc.Act (k₁ true) _ _ from .answered sampleCreate _)) <|
    Run.cons (Sessions.Step.own k₂ true
      (show HttpPc.Own sampleCreateParse s₁ (k₂ true) _ _ from .read 201 1 .job)) <|
    Run.cons (Sessions.Step.own k₃ false
      (show HttpPc.Own sampleCreateParse s₁ (k₃ false) _ _ from
        .arrive ⟨.get, "/jobs/1", .bytes []⟩)) <|
    Run.single (Sessions.Step.own k₄ false
      (show HttpPc.Own sampleCreateParse s₁ (k₄ false) _ _ from .read 200 1 .job))
  exact ⟨_, _, rfl, ⟨_, rfl⟩, ⟨_, rfl⟩,
    service_accounts Fleet.emptyFleet_idle (fun _ => rfl) hrun⟩

end Request

end JobRunner.Http
