import JobRunner.Jobctl.SalesRep

/-!
# Naming a rep (`jobctl::qbo`)

`sales_rep` takes a `rep_name`. A user who is no admin may pass the user's own name, in any
spelling that is the same up to the case of ASCII letters; rows and classes are then matched
by that spelling, in Unicode lower case.

- `repSales_renamed`: spellings with one key ask the same questions and differ in `repName`
  only.
- `salesRep_renamed`: what a `rep_name` does for a user who is no admin.
- `rep_name_cannot_widen`: the figures are those without it.
-/

open Text

namespace JobRunner.Jobctl

variable {P : Platform}

/-! ## Spellings of one name -/

theorem sumForRep_congr {rep rep' : String} (h : nameKey P rep = nameKey P rep')
    (rows : List (Row P.F64)) : sumForRep P rows rep = sumForRep P rows rep' := by
  have hrows : countedRows P rows rep = countedRows P rows rep' := by
    refine List.filter_congr fun row _ => ?_
    rw [matchesRep_congr h]
  rw [sumForRep, sumForRep, hrows]

theorem QboClass.matchesRep_congr {rep rep' : String} (h : nameKey P rep = nameKey P rep')
    (cls : QboClass) : cls.matchesRep P rep = cls.matchesRep P rep' := by
  unfold QboClass.matchesRep
  rw [Jobctl.matchesRep_congr h, Jobctl.matchesRep_congr h, Jobctl.matchesRep_congr h]

/-- The loop over the class tree starts from the same classes, and from there on it
does not look at the name. -/
theorem classIdsForRep_congr {rep rep' : String} (h : nameKey P rep = nameKey P rep')
    (hrep : trim rep ≠ "") (hrep' : trim rep' ≠ "") (classes : List QboClass) :
    classIdsForRep P classes rep = classIdsForRep P classes rep' := by
  have hmatched : (classes.filter fun cls => cls.matchesRep P rep) =
      classes.filter fun cls => cls.matchesRep P rep' :=
    List.filter_congr fun cls _ => QboClass.matchesRep_congr h cls
  rw [classIdsForRep, classIdsForRep, if_neg hrep, if_neg hrep', hmatched]

theorem repReport_renamed {rep rep' : String} (h : nameKey P rep = nameKey P rep')
    (hrep : trim rep ≠ "") (hrep' : trim rep' ≠ "") (start stop : String)
    (classSales : Report P.F64) (classes : List QboClass) (customers : List (CustomerSales P.F64))
    (total : P.F64) :
    repReport P start stop rep classSales classes customers total =
      (repReport P start stop rep' classSales classes customers total).set "repName"
        (.str rep) := by
  have hmatched : matchedClasses P classes rep = matchedClasses P classes rep' := by
    rw [matchedClasses, matchedClasses, classIdsForRep_congr h hrep hrep']
  rw [repReport, repReport, hmatched, sumForRep_congr h]
  rfl

/-- The same questions, and the same result under another spelling: the name is
compared only by its key, and is printed as it was given. -/
theorem repSales_renamed {rep rep' : String} (h : nameKey P rep = nameKey P rep')
    (hrep : trim rep ≠ "") (hrep' : trim rep' ≠ "") (start stop : String) :
    repSales P start stop rep =
      (fun result => result.set "repName" (.str rep)) <$> repSales P start stop rep' := by
  unfold repSales
  simp only [map_bind, classIdsForRep_congr h hrep hrep', map_pure,
    repReport_renamed h hrep hrep']

/-! ## The argument -/

theorem optionalStr_erase_self (args : Json) (name : String) :
    optionalStr (args.erase name) name = none := by
  rw [optionalStr, Json.get?_erase_self]
  rfl

theorem requiredDate_erase (args : Json) {key name : String} (h : key ≠ name) :
    requiredDate (args.erase key) name = requiredDate args name := by
  rw [requiredDate, requiredDate, requiredStr, requiredStr, optionalStr, optionalStr,
    Json.get?_erase_other args h]

theorem eqIgnoreAsciiCase_empty {s : String} (h : eqIgnoreAsciiCase s "" = true) : s = "" := by
  have hmap : s.toList.map Char.toLower = [] := of_decide_eq_true h
  exact String.toList_eq_nil_iff.mp (List.map_eq_nil_iff.mp hmap)

/-- **Naming a rep.** For a user who is no admin, `sales_rep` with a `rep_name` fails before
it asks anything, or it is the call without one, its result under another spelling. -/
theorem salesRep_renamed (hP : P.Lawful) {session : Session}
    (hadmin : session.scope.isAdmin = false) (crm : Except SqlError Crm) (args : Json) :
    (∃ err, salesRep P session crm args = .done (.error err)) ∨
    ∃ rep, salesRep P session crm args =
      (fun result => result.set "repName" (.str rep)) <$>
        salesRep P session crm (args.erase "rep_name") := by
  unfold salesRep
  rw [requiredDate_erase args (by decide), requiredDate_erase args (by decide),
    optionalStr_erase_self]
  -- what fails before the name is looked at fails with or without it
  rcases requiredDate args "start_date" with err | start
  · exact .inl ⟨err, rfl⟩
  rcases requiredDate args "end_date" with err | stop
  · exact .inl ⟨err, rfl⟩
  rcases crm with err | crm
  · exact .inl ⟨.database err, rfl⟩
  simp only [Dialogue.done_ok_bind, Option.getD_none, hadmin, Bool.not_false, Bool.true_and]
  generalize hrep : (optionalStr args "rep_name").getD (trim (crm.userName session.scope)) = rep
  have htrim : trim rep = rep := trim_rep hrep
  generalize hown : crm.userName session.scope = own at hrep ⊢
  by_cases hsame : eqIgnoreAsciiCase rep (trim own) = true
  · have hself : eqIgnoreAsciiCase (trim own) (trim own) = true := decide_eq_true rfl
    rw [hsame, hself]
    by_cases hblank : rep = ""
    · exact .inl ⟨_, if_pos hblank⟩
    · -- neither spelling is blank, so both reach the reports
      have hown_ne : trim own ≠ "" := by
        intro h
        rw [h] at hsame
        exact hblank (eqIgnoreAsciiCase_empty hsame)
      have hkey : nameKey P rep = nameKey P (trim own) := by
        rw [nameKey_of_rep hP hrep hsame, nameKey, nameKey, trim_trim]
      refine .inr ⟨rep, ?_⟩
      simp only [Bool.not_true, Bool.false_eq_true, if_false, if_neg hblank, if_neg hown_ne]
      exact repSales_renamed hkey (by rwa [htrim]) (by rwa [trim_trim]) start stop
  · rw [Bool.not_eq_true] at hsame
    rw [hsame]
    exact .inl ⟨_, rfl⟩

/-- The figures of a result of `sales_rep`. -/
def repFigures : List String :=
  ["classSalesAmount", "matchedClasses", "customerSalesTotal", "customers"]

/-- **A user who is no admin cannot widen `sales_rep`.** With any `rep_name` it fails, or
gives the figures of the call without one. -/
theorem rep_name_cannot_widen (hP : P.Lawful) {session : Session}
    (hadmin : session.scope.isAdmin = false) (crm : Except SqlError Crm) (args : Json)
    (answers : Request → Answer) :
    (∃ err, (salesRep P session crm args).eval answers = .error err) ∨
    ∃ result own, (salesRep P session crm args).eval answers = .ok result ∧
      (salesRep P session crm (args.erase "rep_name")).eval answers = .ok own ∧
      ∀ figure ∈ repFigures, result.get? figure = own.get? figure := by
  rcases salesRep_renamed hP hadmin crm args with ⟨err, hfail⟩ | ⟨rep, hrenamed⟩
  · exact .inl ⟨err, by rw [hfail, Dialogue.eval_done]⟩
  rw [hrenamed, Dialogue.eval_map]
  rcases (salesRep P session crm (args.erase "rep_name")).eval answers with err | own
  · exact .inl ⟨err, rfl⟩
  · refine .inr ⟨own.set "repName" (.str rep), own, rfl, rfl, fun figure hfigure => ?_⟩
    refine Json.get?_set_other own ?_ (.str rep)
    rintro rfl
    revert hfigure
    decide

/-- The year, for a name in capitals. -/
def capitalsArgs : Json :=
  .obj [("start_date", .str "2026-01-01"), ("end_date", .str "2026-12-31"),
    ("rep_name", .str " ALINA PETROVA ")]

/-- Alina Petrova, asking for herself in capitals, gets what she gets without a name. -/
theorem capitals_own_sales :
    ∃ result own,
      (salesRep wholePlatform plainSession (.ok twoAlinas) capitalsArgs).eval alinaServer =
        .ok result ∧
      (salesRep wholePlatform plainSession (.ok twoAlinas) (capitalsArgs.erase "rep_name")).eval
        alinaServer = .ok own ∧
      ∀ figure ∈ repFigures, result.get? figure = own.get? figure := by
  have hadmin : plainSession.scope.isAdmin = false := rfl
  rcases rep_name_cannot_widen wholePlatform_lawful hadmin (.ok twoAlinas) capitalsArgs alinaServer
    with ⟨err, hfail⟩ | hsame
  · -- the name passes the check, and the server answers
    have hstart : requiredDate capitalsArgs "start_date" = .ok "2026-01-01" :=
      requiredDate_of rfl (by decide +kernel) (by decide +kernel)
    have hstop : requiredDate capitalsArgs "end_date" = .ok "2026-12-31" :=
      requiredDate_of rfl (by decide +kernel) (by decide +kernel)
    have hown : trim (twoAlinas.userName plainSession.scope) = "Alina Petrova" := by decide +kernel
    have hrep : optionalStr capitalsArgs "rep_name" = some "ALINA PETROVA" := by
      have htrim : trim " ALINA PETROVA " = "ALINA PETROVA" := by decide +kernel
      simp [optionalStr, capitalsArgs, Json.get?, Json.members, Json.asStr, htrim]
    simp only [salesRep, hstart, hstop, hown, hrep, Dialogue.done_ok_bind] at hfail
    have hdone := eval_repSales_alina "2026-01-01" "2026-12-31" "ALINA PETROVA"
    exact absurd (hdone.symm.trans hfail) (by simp)
  · exact hsame

end JobRunner.Jobctl
