import Xllm.Scheduler.DisaggRequest

/-!
# Which requests survive the handoff

A request that the factory created is copied into a message and rebuilt from it. Three kinds of fields
do not come back: the parameters of the scheduler and the beam width are never copied, the
`logprobs` of the request is rebuilt from the one of its sampling parameters, and sizes travel in 32
bits. `Survives` is what is left.
-/

namespace Xllm.Scheduler.Disagg

open Xllm.Lib
open Xllm.Request
open Xllm.Request.LLMRequestFactory
open DisaggPDScheduler DisaggPDServiceImpl

variable {F G : Type}

/-- The two states are the same request: checkers are compared by their answers. -/
structure SameRequest (original rebuilt : RequestState F G) : Prop where
  promptTokens : rebuilt.promptTokens = original.promptTokens
  samplingParam : rebuilt.samplingParam = original.samplingParam
  schedulerParam : rebuilt.schedulerParam = original.schedulerParam
  stoppingChecker : ∀ tokenIds numPromptTokens,
    rebuilt.stoppingChecker.check tokenIds numPromptTokens =
      original.stoppingChecker.check tokenIds numPromptTokens
  seqCapacity : rebuilt.seqCapacity = original.seqCapacity
  n : rebuilt.n = original.n
  bestOf : rebuilt.bestOf = original.bestOf
  logprobs : rebuilt.logprobs = original.logprobs
  stream : rebuilt.stream = original.stream
  echo : rebuilt.echo = original.echo
  skipSpecialTokens : rebuilt.skipSpecialTokens = original.skipSpecialTokens
  includeStopStrInOutput : rebuilt.includeStopStrInOutput = original.includeStopStrInOutput
  jsonObjectGrammar : rebuilt.jsonObjectGrammar = original.jsonObjectGrammar
  jsonReasoningEnabled : rebuilt.jsonReasoningEnabled = original.jsonReasoningEnabled

/-- The scheduler parameters are the ones that unset wire fields are read as. -/
structure WireDefaults (sp : RequestParams F) : Prop where
  offline : sp.offline = false
  priority : sp.priority = .default
  ttltSloMs : sp.ttltSloMs = 0
  ttftSloMs : sp.ttftSloMs = 0
  tpotSloMs : sp.tpotSloMs = 0
  tpotPriorityWeight : sp.tpotPriorityWeight = 0
  ttftPriorityWeight : sp.ttftPriorityWeight = 0
  ttltPriorityWeight : sp.ttltPriorityWeight = 0
  priorityWeight : sp.priorityWeight = 0

/-- What of the parameters of a request survives. -/
structure Survives (config : FactoryConfig G) (sp : RequestParams F) (numPromptTokens : Nat) :
    Prop where
  wireDefaults : WireDefaults sp
  beamWidth : sp.beamWidth = 0
  logprobs : sp.n.toNat < sp.bestOfOrN.toNat → sp.logprobs = true
  capacity_lt : capacity config numPromptTokens sp < 2 ^ 31
  bestOf_lt : sp.bestOfOrN.toNat < 2 ^ 31

/-! ## One field at a time -/

section Fields

variable {config : FactoryConfig G} {sp : RequestParams F}

/-- What the decode instance makes of scheduler parameters, whatever they were. -/
theorem schedulerParam_disaggRequest (request : Request F G) :
    schedulerParam (disaggRequest request) = ⟨false, 0, 0, 0, 0, 0, 0, 0, .default⟩ :=
  rfl

theorem toSchedulerParam_eq_iff :
    sp.toSchedulerParam = ⟨false, 0, 0, 0, 0, 0, 0, 0, .default⟩ ↔ WireDefaults sp := by
  constructor
  · intro h
    by_cases hoffline : sp.offline = true
    · rw [RequestParams.toSchedulerParam, if_pos hoffline] at h
      cases h
    · rw [RequestParams.toSchedulerParam, if_neg hoffline] at h
      injection h
      exact
        { offline := by simpa using hoffline
          priority := by assumption
          ttltSloMs := by assumption
          ttftSloMs := by assumption
          tpotSloMs := by assumption
          tpotPriorityWeight := by assumption
          ttftPriorityWeight := by assumption
          ttltPriorityWeight := by assumption
          priorityWeight := by assumption }
  · intro h
    rw [RequestParams.toSchedulerParam, if_neg (by simp [h.offline]), h.priority, h.ttltSloMs,
      h.ttftSloMs, h.tpotSloMs, h.tpotPriorityWeight, h.ttftPriorityWeight, h.ttltPriorityWeight,
      h.priorityWeight]

theorem buildSamplingParam_beamWidth (bestOf : Nat) :
    (buildSamplingParam config sp bestOf).beamWidth = sp.beamWidth := by
  rw [buildSamplingParam, RequestSamplingParam.enableBeamSearch]
  split <;> rfl

/-- Without a beam the factory's sampling parameters come back. -/
theorem samplingParam_disaggRequest_iff (request : Request F G) (bestOf : Nat)
    (h : request.state.samplingParam = buildSamplingParam config sp bestOf) :
    samplingParam (disaggRequest request) = request.state.samplingParam ↔ sp.beamWidth = 0 := by
  constructor
  · intro hsame
    have hwidth : request.state.samplingParam.beamWidth = 0 := by
      rw [← hsame]
      rfl
    rwa [h, buildSamplingParam_beamWidth] at hwidth
  · intro hwidth
    have hone : ¬ ((1 : Int32) < 0) := by decide
    rw [samplingParam, disaggRequest]
    simp only [h, buildSamplingParam, RequestSamplingParam.enableBeamSearch, hwidth, if_neg hone,
      RequestParams.toSamplingParam]

theorem buildSamplingParam_logprobs_iff (config : FactoryConfig G) (hwidth : sp.beamWidth = 0) (bestOf : Nat) :
    (buildSamplingParam config sp bestOf).logprobs = sp.logprobs ↔
      (sp.n.toNat < bestOf → sp.logprobs = true) := by
  have hone : ¬ ((1 : Int32) < 0) := by decide
  rw [buildSamplingParam, RequestSamplingParam.enableBeamSearch, hwidth, if_neg hone]
  simp only [RequestParams.toSamplingParam]
  by_cases hn : sp.n.toNat < bestOf
  · rw [if_pos hn]
    exact ⟨fun h _ => h.symm, fun h => (h hn).symm⟩
  · rw [if_neg hn]
    exact ⟨fun _ h => absurd h hn, fun _ => rfl⟩

theorem capacity_lt (config : FactoryConfig G) (sp : RequestParams F) {numPromptTokens : Nat}
    (h : numPromptTokens < 2 ^ 61) : capacity config numPromptTokens sp < 2 ^ 64 - 2 ^ 31 := by
  have hmax := sp.effectiveMaxTokens.toNat_lt
  rw [capacity]
  split <;> omega

theorem effectiveMaxTokens_lt_capacity (config : FactoryConfig G) (numPromptTokens : Nat) :
    sp.effectiveMaxTokens.toNat < capacity config numPromptTokens sp := by
  rw [capacity]
  split <;> omega

/-- Only the limit on generated tokens can change, and it does not when it fits. -/
theorem stoppingChecker_disaggRequest (request : Request F G)
    (h : buildStoppingChecker config sp = .ok request.state.stoppingChecker)
    (hmax : sp.effectiveMaxTokens.toNat < 2 ^ 31) :
    stoppingChecker (disaggRequest request) = request.state.stoppingChecker := by
  rw [buildStoppingChecker] at h
  split at h
  · cases h
  · injection h with h
    have hgenerated : sizeOfInt32 (int32OfSize sp.effectiveMaxTokens.toNat) =
        sp.effectiveMaxTokens.toNat := (size_int32_iff (by omega)).mpr hmax
    rw [stoppingChecker, disaggRequest]
    simp only [← h, hgenerated, int32_size]

/-- A grammar is built on the decode instance for the requests it was built for, from the same
configuration. -/
theorem jsonSettings_disaggRequest (config : FactoryConfig G) (sp : RequestParams F)
    (request : Request F G) (hsampling : request.state.samplingParam.jsonObject = true →
      config.enableJsonObjectOutput = true)
    (h : ∃ mode, LLMRequestFactory.jsonSettings config sp mode
        request.state.samplingParam.jsonObject =
      .ok (request.state.jsonObjectGrammar, request.state.jsonReasoningEnabled)) :
    DisaggPDServiceImpl.jsonSettings config (disaggRequest request) =
      .ok (request.state.jsonObjectGrammar, request.state.jsonReasoningEnabled) := by
  obtain ⟨mode, h⟩ := h
  rw [DisaggPDServiceImpl.jsonSettings]
  by_cases hjson : request.state.samplingParam.jsonObject = true
  · have henabled := hsampling hjson
    rw [LLMRequestFactory.jsonSettings, if_pos hjson, bind_eq_ok] at h
    obtain ⟨⟨grammar, reasoningEnabled⟩, happly, h⟩ := h
    have hsettings : (some grammar, reasoningEnabled) =
        (request.state.jsonObjectGrammar, request.state.jsonReasoningEnabled) :=
      Except.ok.inj h
    rw [← hsettings]
    have hgrammar := of_applyJsonObjectGrammar happly
    have hreasoning : request.state.jsonReasoningEnabled = reasoningEnabled :=
      (Prod.mk.inj hsettings).2.symm
    rw [if_pos (by rw [disaggRequest]; simp [hjson, henabled])]
    simp only [disaggRequest, hreasoning, hgrammar]
  · rw [LLMRequestFactory.jsonSettings, if_neg hjson] at h
    rw [if_neg (by rw [disaggRequest]; simp [hjson])]
    exact congrArg Except.ok (Except.ok.inj h)

theorem buildSamplingParam_jsonObject (bestOf : Nat)
    (h : (buildSamplingParam config sp bestOf).jsonObject = true) :
    config.enableJsonObjectOutput = true := by
  rw [buildSamplingParam, RequestSamplingParam.enableBeamSearch] at h
  split at h <;> exact (Bool.and_eq_true _ _ ▸ h).1

end Fields

/-! ## The whole request -/

theorem generateRequest_fields {config : FactoryConfig G} {enablePrefixCache : Bool}
    {req : DisaggRequest F} {rebuilt : Request F G}
    (h : generateRequest config enablePrefixCache req = .ok rebuilt) :
    rebuilt.state.promptTokens = req.promptTokens ∧
      rebuilt.state.samplingParam = samplingParam req ∧
      rebuilt.state.schedulerParam = schedulerParam req ∧
      rebuilt.state.stoppingChecker = stoppingChecker req ∧
      rebuilt.state.seqCapacity = sizeOfInt32 req.seqCapacity ∧
      rebuilt.state.n = sizeOfInt32 req.n ∧
      rebuilt.state.bestOf = sizeOfInt32 req.bestOf ∧
      rebuilt.state.logprobs = req.logprobs ∧
      rebuilt.state.stream = req.stream ∧
      rebuilt.state.echo = req.echo ∧
      rebuilt.state.skipSpecialTokens = req.skipSpecialTokens ∧
      rebuilt.state.includeStopStrInOutput = req.includeStopStrInOutput ∧
      DisaggPDServiceImpl.jsonSettings config req =
        .ok (rebuilt.state.jsonObjectGrammar, rebuilt.state.jsonReasoningEnabled) := by
  rw [generateRequest] at h
  split at h
  · cases h
  split at h
  · rw [bind_eq_ok] at h
    obtain ⟨⟨grammar, reasoning⟩, hjson, h⟩ := h
    cases h
    exact ⟨rfl, rfl, rfl, rfl, rfl, rfl, rfl, rfl, rfl, rfl, rfl, rfl, hjson⟩
  · cases h

/-! ## Requests that bring one token -/

/-- The default parameters with the scheduler parameters of an empty message. -/
def emptySchedulerParams : RequestParams UInt32 :=
  { plainParams with
    priority := .default, ttltSloMs := 0, ttftSloMs := 0, tpotSloMs := 0, tpotPriorityWeight := 0,
    ttftPriorityWeight := 0, ttltPriorityWeight := 0, priorityWeight := 0 }

/-- A request for a prompt of one token. -/
def plainRequest (sp : RequestParams UInt32) (h : sp.n.toNat ≤ sp.bestOfOrN.toNat) :
    Request UInt32 Unit :=
  { requestId := "req", xRequestId := "", xRequestTime := "", serviceRequestId := "",
    sourceXserviceAddr := "", pdReservationId := "reservation"
    state := plainState plainConfig sp h }

/-! ## The handoff -/

/-- A created request comes out of the handoff as it went in exactly when its scheduler parameters
are all zero or unset on the wire, it has no beam width, no log probabilities were switched on for
it, and its sizes fit 32 bits. -/
theorem requestSurvivesHandoff_iff {config : FactoryConfig G} {enablePrefixCache : Bool}
    {prompt : String} {promptTokens : Option TokenVector} {sp : RequestParams F}
    {mode : Option ChatTemplateGenerationMode} {original rebuilt : Request F G}
    (hcreate : create config prompt promptTokens sp mode = .ok original.state)
    (hgenerate : generateRequest config enablePrefixCache (disaggRequest original) = .ok rebuilt) :
    SameRequest original.state rebuilt.state ↔
      Survives config sp original.state.promptTokens.length := by
  have hcreated := created hcreate
  obtain ⟨hprompt, hsampling, hscheduler, hchecker, hcapacity, hn, hbestOf, hlogprobs, hstream, hecho,
    hskip, hinclude, hjson⟩ := generateRequest_fields hgenerate
  have hcap := capacity_lt config sp hcreated.promptTokens_lt
  have hbest := sp.bestOfOrN.toNat_lt
  have hsized : ∀ {wire size : Nat}, wire = sizeOfInt32 (int32OfSize size) →
      size < 2 ^ 64 - 2 ^ 31 → (wire = size ↔ size < 2 ^ 31) := by
    intro wire size hwire hsize
    rw [hwire]
    exact size_int32_iff hsize
  have hcapacityIff := hsized hcapacity (hcreated.seqCapacity ▸ hcap)
  have hbestOfIff := hsized hbestOf (by rw [hcreated.bestOf]; omega)
  have hnIff := hsized hn (by
    have := original.state.n_le_bestOf
    rw [hcreated.bestOf] at this
    omega)
  have hwidth := samplingParam_disaggRequest_iff original _ hcreated.samplingParam
  -- `logprobs` of the rebuilt request is the one of the sampling parameters.
  have hlog : rebuilt.state.logprobs =
      (buildSamplingParam config sp sp.bestOfOrN.toNat).logprobs := by
    rw [hlogprobs, ← hcreated.samplingParam]
    rfl
  constructor
  · intro hsame
    have hbeam := hwidth.mp (hsampling ▸ hsame.samplingParam)
    refine
      { wireDefaults := toSchedulerParam_eq_iff.mp ?_
        beamWidth := hbeam
        logprobs := (buildSamplingParam_logprobs_iff config hbeam _).mp ?_
        capacity_lt := hcreated.seqCapacity ▸ hcapacityIff.mp hsame.seqCapacity
        bestOf_lt := hcreated.bestOf ▸ hbestOfIff.mp hsame.bestOf }
    · rw [← hcreated.schedulerParam, ← hsame.schedulerParam, hscheduler,
        schedulerParam_disaggRequest]
    · rw [← hlog, hsame.logprobs, hcreated.logprobs]
  · intro h
    have hmax : sp.effectiveMaxTokens.toNat < 2 ^ 31 :=
      Nat.lt_trans (effectiveMaxTokens_lt_capacity config _) h.capacity_lt
    have hsettings := jsonSettings_disaggRequest config sp original
      (fun hj => buildSamplingParam_jsonObject _ (hcreated.samplingParam ▸ hj)) hcreated.json
    rw [hjson] at hsettings
    have hpair := Except.ok.inj hsettings
    exact
      { promptTokens := hprompt
        samplingParam := hsampling.trans (hwidth.mpr h.beamWidth)
        schedulerParam := by
          rw [hscheduler, schedulerParam_disaggRequest, hcreated.schedulerParam]
          exact (toSchedulerParam_eq_iff.mpr h.wireDefaults).symm
        stoppingChecker := fun tokenIds numPromptTokens => by
          rw [hchecker, stoppingChecker_disaggRequest original hcreated.stoppingChecker hmax]
        seqCapacity := hcapacityIff.mpr (hcreated.seqCapacity ▸ h.capacity_lt)
        n := hnIff.mpr (Nat.lt_of_le_of_lt original.state.n_le_bestOf
          (hcreated.bestOf ▸ h.bestOf_lt))
        bestOf := hbestOfIff.mpr (hcreated.bestOf ▸ h.bestOf_lt)
        logprobs := by
          rw [hlog, hcreated.logprobs]
          exact (buildSamplingParam_logprobs_iff config h.beamWidth _).mpr h.logprobs
        stream := hstream
        echo := hecho
        skipSpecialTokens := hskip
        includeStopStrInOutput := hinclude
        jsonObjectGrammar := (Prod.mk.inj hpair).1
        jsonReasoningEnabled := (Prod.mk.inj hpair).2 }

/-- Without scheduler parameters the request comes back. -/
theorem requestSurvivesHandoff_plain :
    ∃ rebuilt,
      generateRequest plainConfig true
          (disaggRequest (plainRequest emptySchedulerParams (by decide))) = .ok rebuilt ∧
        SameRequest (plainRequest emptySchedulerParams (by decide)).state rebuilt.state := by
  have hcreate : create plainConfig "" (some plainPrompt) emptySchedulerParams none =
      .ok (plainRequest emptySchedulerParams (by decide)).state := by decide +kernel
  obtain ⟨rebuilt, hgenerate⟩ : ∃ rebuilt, generateRequest plainConfig true
      (disaggRequest (plainRequest emptySchedulerParams (by decide))) = .ok rebuilt := ⟨_, rfl⟩
  refine ⟨rebuilt, hgenerate, (requestSurvivesHandoff_iff hcreate hgenerate).mpr ?_⟩
  exact
    { wireDefaults := ⟨rfl, rfl, rfl, rfl, rfl, rfl, rfl, rfl, rfl⟩
      beamWidth := rfl
      logprobs := by decide
      capacity_lt := by decide
      bestOf_lt := by decide }

/-- A request with the default parameters does not come back: its priority is lost. -/
theorem defaultPriority_lost :
    ∃ original rebuilt : Request UInt32 Unit,
      create plainConfig "" (some plainPrompt) plainParams none = .ok original.state ∧
        generateRequest plainConfig true (disaggRequest original) = .ok rebuilt ∧
          ¬ SameRequest original.state rebuilt.state := by
  refine ⟨plainRequest plainParams (by decide), _, by decide +kernel, rfl, fun h => ?_⟩
  have hpriority := congrArg SchedulerParam.priority h.schedulerParam
  exact absurd hpriority (by decide)

end Xllm.Scheduler.Disagg
