/-
`claim_global_interval`: which of any number of processes takes the turn of a periodic job. The clocks
of the processes are not synchronized and may run backwards; what spaces the claims is the time that
the last one stored, read and written under the lock.
-/
import Aibot.Lib.Floating
import Aibot.Lib.Sweep
import Aibot.Store.Linear

namespace Aibot.Store

open VersionedDocument Floating

/-! ## The metrics -/

/-- The `metrics` of the document, where they are a dictionary. -/
def metricsOf (document : JsonDocument) : JsonDocument :=
  (document.field "metrics").fields?.getD Dict.empty

/-- A metric of the document, where it has one. -/
def metricOf (key : String) (document : JsonDocument) : Option Json := (metricsOf document).get? key

/-- The fallback of the metrics. -/
def emptyMetrics : JsonDocument :=
  Dict.ofList [("schema_version", .int 2), ("version", .int 0), ("metrics", .obj [])]

/-- What the mutators of the metrics do first: the defaults are set, and metrics that are no dictionary
are replaced by an empty one. -/
def withMetrics (document : JsonDocument) : JsonDocument :=
  let document := (Dict.setDefaults [("schema_version", .int 2), ("metrics", .obj [])] document).2
  document.set "metrics" (.ofFields (metricsOf document))

/-- `set_global_metrics`, of names that are not empty. -/
def setGlobalMetrics (values : List (String × Json)) : Request JsonDocument String (Option Bool) :=
  .update emptyMetrics none fun document =>
    let document := withMetrics document
    .ok (none, document.set "metrics" (.ofFields ((metricsOf document).update values)))

/-! ## The claim -/

/-- `float(x or 0)`, zero where that raises a `TypeError` or a `ValueError`. `float` is what it makes of
a text, and of a float that is no finite number. -/
def previousClaim (float : Json → Option Floating) (x : Json) : Except String Floating :=
  match x.orElse (.int 0) with
  | .bool b => .ok (ofInt b.toInt)
  | .int n => orRaise "OverflowError" ((Double.round n).map .finite)
  | .float q => .ok (((Double.round q).map .finite).getD (.infinite (q < 0)))
  | .str s => .ok ((float (.str s)).getD zero)
  | .other => .ok ((float .other).getD zero)
  | .null | .arr _ | .obj _ => .ok zero
where
  ofInt (n : Int) : Floating := ((Double.round n).map .finite).getD zero

/-- The `mutate` closure of `claim_global_interval`. -/
def claimMutate (float : Json → Option Floating) (key : String) (now : Double) (intervalSeconds : Floating)
    (document : JsonDocument) : Except String (Option Bool × JsonDocument) := do
  let document := withMetrics document
  let metrics := metricsOf document
  let previous ← previousClaim float ((metrics.get? key).getD (.int 0))
  if (sub (.finite now) previous).lt (maxZero intervalSeconds) then .ok (some false, document)
  else .ok (some true, document.set "metrics" (.ofFields (metrics.set key (.float now.val))))

/-- `claim_global_interval`, of a name that is not blank. -/
def claimGlobalInterval (float : Json → Option Floating) (key : String) (now : Double)
    (intervalSeconds : Floating) : Request JsonDocument String (Option Bool) :=
  .update emptyMetrics none (claimMutate float key now intervalSeconds)

/-! ## What the calls do to a metric -/

@[simp] theorem metricsOf_set_metrics (document metrics : JsonDocument) :
    metricsOf (document.set "metrics" (.ofFields metrics)) = metrics := by
  unfold metricsOf
  rw [Dict.field_set_self, Json.fields?_ofFields]
  rfl

theorem metricsOf_set_of_ne (document : JsonDocument) {key : String} (x : Json) (h : key ≠ "metrics") :
    metricsOf (document.set key x) = metricsOf document := by
  unfold metricsOf
  rw [Dict.field_set_of_ne document x h.symm]

/-- Setting the defaults changes no metric. -/
theorem metricsOf_withMetrics (document : JsonDocument) : metricsOf (withMetrics document) = metricsOf document := by
  unfold withMetrics
  rw [metricsOf_set_metrics]
  unfold metricsOf Dict.field
  rw [Dict.get?_setDefaults]
  cases document.get? "metrics" with
  | none => rfl
  | some x => rfl

/-- No call of this kind writes the metric. -/
def KeepsMetric (key : String) (r : Request JsonDocument String (Option Bool)) : Prop :=
  ∀ document answer written, r.compute document = .ok (answer, some written) →
    metricOf key written = metricOf key document

theorem keepsMetric_update {key : String} {fallback : JsonDocument} {expectedVersion : Option Int}
    {mutator : JsonDocument → Except String (Option Bool × JsonDocument)}
    (h : ∀ document x, mutator document = .ok x → metricOf key x.2 = metricOf key document) :
    KeepsMetric key (.update fallback expectedVersion mutator) := by
  intro document answer written hcompute
  simp only [Request.compute] at hcompute
  cases hu : updateJson mutator expectedVersion document with
  | error e =>
    rw [hu] at hcompute
    cases hcompute
  | ok x =>
    rw [hu] at hcompute
    cases hcompute
    obtain ⟨v, mutated, -, -, hm, hset⟩ := updateJson_ok hu
    rw [hset]
    show metricOf key (mutated.set "version" (.int (v + 1))) = _
    unfold metricOf
    rw [metricsOf_set_of_ne _ _ (by decide)]
    exact h document _ hm

/-- The other writer of the metrics leaves every metric alone that it is not told to set. -/
theorem keepsMetric_setGlobalMetrics {key : String} {values : List (String × Json)}
    (h : key ∉ values.map Prod.fst) : KeepsMetric key (setGlobalMetrics values) := by
  apply keepsMetric_update
  intro document x hx
  cases hx
  unfold metricOf
  rw [metricsOf_set_metrics, Dict.get?_update_of_not_mem _ h, metricsOf_withMetrics]

/-- A claim that is refused leaves the metric alone; one that succeeds stores its time, and comes its
interval after the time that was stored. -/
theorem claimMutate_ok {float : Json → Option Floating} {key : String} {now : Double} {interval : Floating}
    {document : JsonDocument} {x : Option Bool × JsonDocument}
    (h : claimMutate float key now interval document = .ok x) :
    x.1 = some false ∧ metricOf key x.2 = metricOf key document ∨
    x.1 = some true ∧ metricOf key x.2 = some (.float now.val) ∧
      ∃ previous, previousClaim float ((metricOf key document).getD (.int 0)) = .ok previous ∧
        (sub (.finite now) previous).lt (maxZero interval) = false := by
  unfold claimMutate at h
  obtain ⟨previous, hprevious, h⟩ := bind_ok h
  rw [metricsOf_withMetrics] at hprevious h
  split_ifs at h with hearly
  · cases h
    refine .inl ⟨rfl, ?_⟩
    unfold metricOf
    rw [metricsOf_withMetrics]
  · cases h
    refine .inr ⟨rfl, ?_, previous, hprevious, by simpa using hearly⟩
    unfold metricOf
    rw [metricsOf_set_metrics, Dict.get?_set_self]

/-- The time that a claim stored is read back. -/
theorem previousClaim_stored (float : Json → Option Floating) (x : Double) :
    previousClaim float (.float x.val) = .ok (.finite x) := by
  unfold previousClaim Json.orElse
  by_cases hzero : x.val = 0
  · have hfalse : (Json.float x.val).truthy = false := by simp [Json.truthy, hzero]
    have hround : Double.round ((0 : Int) : ℚ) = some x := by
      rw [Int.cast_zero, ← hzero]
      exact Double.round_val x
    rw [hfalse]
    simp only [Bool.false_eq_true, if_false, hround]
    rfl
  · have htrue : (Json.float x.val).truthy = true := by simp [Json.truthy, hzero]
    rw [htrue]
    simp only [if_true, Double.round_val]
    rfl

/-! ## Claims in the order in which they took effect -/

variable {float : Json → Option Floating} {key : String} {initial : Option JsonDocument}

/-- A call that claimed the interval. -/
structure Claims (float : Json → Option Floating) (key : String)
    (x : Commit JsonDocument String (Option Bool)) (now : Double) (interval : Floating) : Prop where
  request : x.request = claimGlobalInterval float key now interval
  answer : x.answer = .updated (some true)

/-- The call claims the interval, or leaves the metric alone. -/
def ClaimsOrKeeps (float : Json → Option Floating) (key : String)
    (r : Request JsonDocument String (Option Bool)) : Prop :=
  (∃ now interval, r = claimGlobalInterval float key now interval) ∨ KeepsMetric key r

/-- `now_j - now_i >= max(0, interval_j)`. -/
def Spaced (earlier later : Double) (interval : Floating) : Prop :=
  (maxZero interval).le (sub (.finite later) (.finite earlier)) = true

/-- What the calls so far leave for the next: the claims are spaced, and the metric has a time that no
claim is after. -/
structure Turns (float : Json → Option Floating) (key : String) (initial : Option JsonDocument)
    (xs : List (Commit JsonDocument String (Option Bool))) : Prop where
  spaced : xs.Pairwise fun a b => ∀ nowA intervalA nowB intervalB, Claims float key a nowA intervalA →
    Claims float key b nowB intervalB → Spaced nowA nowB intervalB
  stored : ∀ a ∈ xs, ∀ now interval, Claims float key a now interval → ∃ (document : JsonDocument)
    (latest : Double), replay initial (xs.map Commit.request) = some document ∧
      metricOf key document = some (.float latest.val) ∧
      ∀ b ∈ xs, ∀ now interval, Claims float key b now interval → now.val ≤ latest.val

/-- A call that is no claim leaves what is stored. -/
theorem Turns.keep {xs : List (Commit JsonDocument String (Option Bool))}
    {x : Commit JsonDocument String (Option Bool)} (h : Turns float key initial xs)
    (hx : ∀ now interval, ¬ Claims float key x now interval)
    (hkeeps : ∀ document, replay initial (xs.map Commit.request) = some document →
      ∃ document', x.request.effect (some document) = some document' ∧
        metricOf key document' = metricOf key document) : Turns float key initial (xs ++ [x]) := by
  constructor
  · rw [List.pairwise_append]
    refine ⟨h.spaced, List.pairwise_singleton _ _, ?_⟩
    intro a _ b hb nowA intervalA nowB intervalB _ hclaim
    rw [List.mem_singleton.1 hb] at hclaim
    exact absurd hclaim (hx _ _)
  · intro a ha now interval hclaim
    have hold : a ∈ xs := by
      rcases List.mem_append.1 ha with ha | ha
      · exact ha
      · rw [List.mem_singleton.1 ha] at hclaim
        exact absurd hclaim (hx _ _)
    obtain ⟨document, latest, hreplay, hmetric, hall⟩ := h.stored a hold now interval hclaim
    obtain ⟨document', heffect, hsame⟩ := hkeeps document hreplay
    refine ⟨document', latest, ?_, hsame.trans hmetric, ?_⟩
    · rw [List.map_append, List.map_singleton, replay_concat, hreplay, heffect]
    · intro b hb now' interval' hclaim'
      rcases List.mem_append.1 hb with hb | hb
      · exact hall b hb now' interval' hclaim'
      · rw [List.mem_singleton.1 hb] at hclaim'
        exact absurd hclaim' (hx _ _)

/-- A claim comes its interval after every claim before it. -/
theorem Turns.claim {xs : List (Commit JsonDocument String (Option Bool))}
    {x : Commit JsonDocument String (Option Bool)} {now₀ : Double} {interval₀ : Floating}
    {document' : JsonDocument} (h : Turns float key initial xs) (hx : Claims float key x now₀ interval₀)
    (heffect : x.request.effect (replay initial (xs.map Commit.request)) = some document')
    (hclaims : ∀ now interval, Claims float key x now interval →
      metricOf key document' = some (.float now.val) ∧
      ∀ document latest, replay initial (xs.map Commit.request) = some document →
        metricOf key document = some (.float (Double.val latest)) → Spaced latest now interval) :
    Turns float key initial (xs ++ [x]) := by
  -- the time that was stored lies between the earlier claims and this one
  have hafter : ∀ a ∈ xs, ∀ nowA intervalA now interval, Claims float key a nowA intervalA →
      Claims float key x now interval → Spaced nowA now interval := by
    intro a ha nowA intervalA now interval hclaimA hclaim
    obtain ⟨document, latest, hreplay, hmetric, hall⟩ := h.stored a ha nowA intervalA hclaimA
    have hlatest := (hclaims now interval hclaim).2 document latest hreplay hmetric
    exact maxZero_le_sub_mono (hall a ha nowA intervalA hclaimA) hlatest
  constructor
  · rw [List.pairwise_append]
    refine ⟨h.spaced, List.pairwise_singleton _ _, ?_⟩
    intro a ha b hb nowA intervalA nowB intervalB hclaimA hclaimB
    rw [List.mem_singleton.1 hb] at hclaimB
    exact hafter a ha nowA intervalA nowB intervalB hclaimA hclaimB
  · intro _ _ _ _ _
    refine ⟨document', now₀, ?_, (hclaims now₀ interval₀ hx).1, ?_⟩
    · rw [List.map_append, List.map_singleton, replay_concat, heffect]
    · intro b hb now interval hclaim
      rcases List.mem_append.1 hb with hb | hb
      · exact le_of_maxZero_le_sub (hafter b hb now interval now₀ interval₀ hclaim hx)
      · rw [List.mem_singleton.1 hb] at hclaim
        have hsame := (hclaims now interval hclaim).1
        rw [(hclaims now₀ interval₀ hx).1, Option.some.injEq, Json.float.injEq] at hsame
        exact hsame.ge

/-- A claim as the store runs it. -/
theorem claim_compute {now : Double} {interval : Floating} {document : JsonDocument}
    {answer : Answer JsonDocument (Option Bool)} {written : Option JsonDocument}
    (h : (claimGlobalInterval float key now interval).compute document = .ok (answer, written)) :
    ∃ x mutated, claimMutate float key now interval document = .ok x ∧ answer = .updated x.1 ∧
      written = some mutated ∧ metricOf key mutated = metricOf key x.2 := by
  simp only [claimGlobalInterval, Request.compute] at h
  cases hu : updateJson (claimMutate float key now interval) none document with
  | error e =>
    rw [hu] at h
    cases h
  | ok y =>
    rw [hu] at h
    cases h
    obtain ⟨v, mutated, -, -, hm, hset⟩ := updateJson_ok hu
    refine ⟨_, _, hm, rfl, rfl, ?_⟩
    rw [hset]
    show metricOf key (mutated.set "version" (.int (v + 1))) = _
    unfold metricOf
    rw [metricsOf_set_of_ne _ _ (by decide)]

theorem turns_concat {xs : List (Commit JsonDocument String (Option Bool))}
    {x : Commit JsonDocument String (Option Bool)} (h : Turns float key initial xs)
    (hrequest : ClaimsOrKeeps float key x.request)
    (haccepted : x.Accepted (replay initial (xs.map Commit.request))) :
    Turns float key initial (xs ++ [x]) := by
  obtain ⟨-, written, hcompute⟩ := haccepted
  by_cases hclaim : ∃ now interval, Claims float key x now interval
  · obtain ⟨now₀, interval₀, hx⟩ := hclaim
    have hcompute₀ := hcompute
    rw [hx.request] at hcompute₀
    obtain ⟨_, document', -, -, rfl, -⟩ := claim_compute hcompute₀
    refine h.claim hx (effect_written hcompute) ?_
    intro now interval hclaim
    have hcompute' := hcompute
    rw [hclaim.request] at hcompute'
    obtain ⟨y, mutated, hm, hanswer, hwritten, hmetric⟩ := claim_compute hcompute'
    obtain rfl := Option.some.inj hwritten
    rcases claimMutate_ok hm with ⟨hfalse, -⟩ | ⟨-, hstored, previous, hprevious, hlate⟩
    · rw [hclaim.answer, hfalse] at hanswer
      cases hanswer
    · refine ⟨hmetric.trans hstored, ?_⟩
      intro document latest hreplay hlatest
      rw [hreplay, Option.getD_some, hlatest, Option.getD_some, previousClaim_stored] at hprevious
      cases hprevious
      exact maxZero_le_sub_of_not_lt hlate
  · refine h.keep (fun now interval hx => hclaim ⟨now, interval, hx⟩) ?_
    intro document hreplay
    rw [hreplay, Option.getD_some] at hcompute
    cases written with
    | none =>
      refine ⟨document, ?_, rfl⟩
      unfold Request.effect
      rw [Option.getD_some, hcompute]
    | some document' =>
      refine ⟨document', effect_written hcompute, ?_⟩
      rcases hrequest with ⟨now, interval, hr⟩ | hkeeps
      · have hcompute' := hcompute
        rw [hr] at hcompute'
        obtain ⟨y, mutated, hm, hanswer, hwritten, hmetric⟩ := claim_compute hcompute'
        obtain rfl := Option.some.inj hwritten
        rcases claimMutate_ok hm with ⟨-, hsame⟩ | ⟨htrue, -⟩
        · exact hmetric.trans hsame
        · exact absurd ⟨now, interval, hr, by rw [hanswer, htrue]⟩ hclaim
      · exact hkeeps document _ _ hcompute

theorem turns_of_accepted {xs : List (Commit JsonDocument String (Option Bool))}
    (hrequest : ∀ x ∈ xs, ClaimsOrKeeps float key x.request)
    (haccepted : ∀ before x after, xs = before ++ x :: after →
      x.Accepted (replay initial (before.map Commit.request))) : Turns float key initial xs := by
  induction xs using List.reverseRecOn with
  | nil => exact ⟨List.Pairwise.nil, nofun⟩
  | append_singleton xs x ih =>
    apply turns_concat
    · refine ih (fun y hy => hrequest y (List.mem_append_left _ hy)) ?_
      rintro before y after rfl
      exact haccepted before y (after ++ [x]) (by simp)
    · exact hrequest x (by simp)
    · exact haccepted xs x [] rfl

/-! ## Runs -/

/-- Every call that begins claims the interval, or leaves the metric alone. -/
def onlyClaims (float : Json → Option Floating) (key : String)
    (_ : System JsonDocument Json.Token String (Option Bool)) :
    StoreAct JsonDocument String (Option Bool) → Prop
  | .begins _ r => ClaimsOrKeeps float key r
  | .happens .. => True

/-- A system whose calls are all of a kind. -/
structure OfKind (P : Request JsonDocument String (Option Bool) → Prop)
    (s : System JsonDocument Json.Token String (Option Bool)) : Prop where
  calls : ∀ c r phase, s.calls c = some (r, phase) → P r
  committed : ∀ x ∈ s.committed, P x.request

theorem ofKind_step {s s' : System JsonDocument Json.Token String (Option Bool)}
    {act : StoreAct JsonDocument String (Option Bool)} (hs : OfKind (ClaimsOrKeeps float key) s)
    (hok : onlyClaims float key s act) (h : s.step act = some s') :
    OfKind (ClaimsOrKeeps float key) s' := by
  cases act with
  | begins c r =>
    simp only [System.step] at h
    split at h
    · cases h
      refine ⟨?_, hs.committed⟩
      intro c' r' phase hc
      rcases enter_calls hc with ⟨-, rfl, -⟩ | ⟨-, hold⟩
      · exact hok
      · exact hs.calls c' r' phase hold
    · cases h
  | happens c event =>
    simp only [System.step] at h
    split at h
    · cases h
    · rename_i r phase hcall
      have hr := hs.calls c r phase hcall
      obtain ⟨x, -, rfl⟩ := Option.map_eq_some_iff.1 h
      constructor
      · intro c' r' phase' hc
        rcases update_eq_some hc with ⟨-, hsome⟩ | ⟨-, hold⟩
        · cases hsome
          exact hr
        · exact hs.calls c' r' phase' hold
      · intro y hy
        rcases List.mem_append.1 hy with hy | hy
        · exact hs.committed y hy
        · obtain ⟨answer, -, rfl⟩ := List.mem_map.1 hy
          exact hr

/-- Claims of an interval by any number of processes. In every run of the store in which no other
function writes the key, a claim that takes effect after another one has a time that is, as floats
compute the difference, at least its own interval after the other's, whatever the clocks and whatever
was claimed in between; and it is exactly so where the difference of the two times is a float. -/
theorem interval_claims_spaced {content : Option (List Json.Token)}
    (hstored : content.map Codec.load = initial.map some)
    {acts : List (StoreAct JsonDocument String (Option Bool))}
    {s : System JsonDocument Json.Token String (Option Bool)}
    (h : Run System.step (onlyClaims float key) (System.start content) acts s) :
    s.committed.Pairwise fun a b => ∀ nowA intervalA nowB intervalB, Claims float key a nowA intervalA →
      Claims float key b nowB intervalB →
      Spaced nowA nowB intervalB ∧ nowA.val ≤ nowB.val ∧
      ∀ difference : Double, difference.val = nowB.val - nowA.val →
        (maxZero intervalB).le (.finite difference) = true := by
  have hkind : OfKind (ClaimsOrKeeps float key) s := by
    refine h.invariant (fun _ _ _ hs hok hstep => ofKind_step hs hok hstep) ⟨?_, ?_⟩
    · intro c r phase hc
      cases hc
    · intro x hx
      cases hx
  have hlinear := linearizable hstored (h.weaken fun _ _ _ => trivial)
  have hturns := turns_of_accepted hkind.committed fun before x after he =>
    (hlinear.accepted before x after he).1
  refine hturns.spaced.imp ?_
  intro a b hspaced nowA intervalA nowB intervalB hclaimA hclaimB
  have hab := hspaced nowA intervalA nowB intervalB hclaimA hclaimB
  refine ⟨hab, le_of_maxZero_le_sub hab, ?_⟩
  intro difference hdifference
  have hround : sub (.finite nowB) (.finite nowA) = .finite difference := by
    show ((Double.round (nowB.val - nowA.val)).map finite).getD _ = _
    rw [← hdifference, Double.round_val]
    rfl
  unfold Spaced at hab
  rw [hround] at hab
  exact hab

def five : Double := ⟨5, 5, 0, by norm_num, by norm_num, by norm_num, by norm_num⟩

def eight : Double := ⟨8, 8, 0, by norm_num, by norm_num, by norm_num, by norm_num⟩

/-- The steps of a call that saves the metrics of one claim, which have 17 fragments. -/
def savesMetrics : List CallEvent :=
  [.compute, .cleanUp []] ++ List.replicate 17 .writeFragment ++ [.finishWriting, .replace, .release]

/-- The steps of a call that reads them. -/
def readsMetrics : List CallEvent := List.replicate 17 .readFragment ++ [.finishReading]

/-- The steps of a call to its open file. -/
def opensMetrics : List CallEvent := [.acquire, .opens]

/-- Call 0 claims at five on a path without a file; call 1 claims at eight, with an interval without
length. -/
def twoClaims : List (StoreAct JsonDocument String (Option Bool)) :=
  [.begins 0 (claimGlobalInterval (fun _ => none) "feed" five zero),
    .begins 1 (claimGlobalInterval (fun _ => none) "feed" eight zero)] ++
  (opensMetrics ++ savesMetrics).map (.happens 0) ++
  (opensMetrics ++ readsMetrics ++ savesMetrics).map (.happens 1)

theorem interval_claims_spaced_twoClaims : ∃ s : System JsonDocument Json.Token String (Option Bool),
    s.committed.map Commit.call = [0, 1] ∧
    s.committed.Pairwise fun a b => ∀ nowA intervalA nowB intervalB,
      Claims (fun _ => none) "feed" a nowA intervalA → Claims (fun _ => none) "feed" b nowB intervalB →
      Spaced nowA nowB intervalB ∧ nowA.val ≤ nowB.val ∧
      ∀ difference : Double, difference.val = nowB.val - nowA.val →
        (maxZero intervalB).le (.finite difference) = true := by
  obtain ⟨s, hrun, hcommitted⟩ : ∃ s : System JsonDocument Json.Token String (Option Bool),
      Run System.step Run.anyStep (System.start none) twoClaims s ∧
      s.committed.map Commit.call = [0, 1] := Run.exists_of_any (by decide +kernel)
  have hnone : (none : Option (List Json.Token)).map Codec.load = (none : Option JsonDocument).map some := rfl
  refine ⟨s, hcommitted, interval_claims_spaced hnone (hrun.of_forall_mem ?_)⟩
  intro act hact s
  simp only [twoClaims, List.mem_append, List.mem_cons, List.not_mem_nil, or_false, List.mem_map] at hact
  rcases hact with ((rfl | rfl) | ⟨_, _, rfl⟩) | ⟨_, _, rfl⟩
  · exact .inl ⟨_, _, rfl⟩
  · exact .inl ⟨_, _, rfl⟩
  · trivial
  · trivial

end Aibot.Store
