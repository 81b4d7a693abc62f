import GeniusNew.Workers.Outcomes
import GeniusNew.Workers.Sections

/-! # A digest fits its signed result

The sections of a digest take at most 15457 escaped bytes together, whichever sentences are
chosen and whatever the statistics say. With identifiers of the usual lengths the signed result
that carries it stays within the wire.
-/

namespace GeniusNew

open Json

namespace Workers

section Bounds

variable {labels : Labels} {language : Language}

/-- How large the labels of either language are. -/
structure Labels.Fits (labels : Labels) : Prop where
  title : contentLength labels.title ≤ 11
  language : contentLength labels.language ≤ 8
  words : contentLength labels.words ≤ 11
  sentences : contentLength labels.sentences ≤ 10
  readingTime : contentLength labels.readingTime ≤ 12
  readability : contentLength labels.readability ≤ 29
  core : contentLength labels.core ≤ 19
  keywords : contentLength labels.keywords ≤ 22
  figures : contentLength labels.figures ≤ 19
  stats : contentLength labels.stats ≤ 10
  avgSentence : contentLength labels.avgSentence ≤ 27
  avgWord : contentLength labels.avgWord ≤ 25
  truncated : contentLength labels.truncated ≤ 14
  bands : ∀ score, contentLength (band score labels.bands) ≤ 13

theorem contentLength_band_le {bands : Str × Str × Str × Str} {bytes : Nat}
    (each : contentLength bands.1 ≤ bytes ∧ contentLength bands.2.1 ≤ bytes ∧
      contentLength bands.2.2.1 ≤ bytes ∧ contentLength bands.2.2.2 ≤ bytes) (score : Int) :
    contentLength (band score bands) ≤ bytes := by
  unfold band
  split_ifs
  · exact each.1
  · exact each.2.1
  · exact each.2.2.1
  · exact each.2.2.2

theorem fits_labelsDe : labelsDe.Fits := by
  constructor
  case bands =>
    apply contentLength_band_le
    decide
  all_goals decide

theorem fits_labelsEn : labelsEn.Fits := by
  constructor
  case bands =>
    apply contentLength_band_le
    decide
  all_goals decide

theorem Language.fits (language : Language) : language.labels.Fits := by
  cases language with
  | de => exact fits_labelsDe
  | en => exact fits_labelsEn
  | unknown => exact fits_labelsDe

theorem contentLength_shown (language : Language) : contentLength language.shown ≤ 20 := by
  cases language <;> decide

/-- The texts between the parts of a line. -/
theorem contentLength_between :
    contentLength (str "# ") = 2 ∧ contentLength (str "## ") = 3 ∧ contentLength (str "- ") = 2 ∧
      contentLength (str ": ") = 2 ∧ contentLength (str " · ") = 8 ∧ contentLength (str " ") = 1 ∧
      contentLength (str " (") = 2 ∧ contentLength (str ")") = 1 ∧
      contentLength (str ", ") = 2 := by
  decide

variable {words sentences : Nat} {statistics : Statistics}

theorem cost_opening (language : Language) (fits : labels.Fits) (few : words < 100000)
    (parts : sentences < 100000) (score : Int) :
    cost (opening labels language words sentences (max 0 (min 100 score))) ≤ 221 := by
  have shown := contentLength_shown language
  have number := contentLength_number few language
  have decimals := contentLength_decimal_le (n := sentences) (k := 4) parts
  have reading := contentLength_readingTime few language
  have scored := contentLength_score score
  have band := fits.bands (max 0 (min 100 score))
  obtain ⟨title, language_, words_, sentences_, readingTime_, readability, core, _⟩ := fits
  simp only [opening, cost_cons, cost_nil, contentLength_append, contentLength_nil,
    contentLength_between]
  omega

theorem length_cutSentence (sentence : Str) : (cutSentence sentence).length ≤ 320 := by
  unfold cutSentence
  split_ifs with long
  · have stripped := (List.rdropWhile_prefix isWhitespace
      (sentence.take (maxSentenceChars - 2))).length_le
    have taken := List.length_take_le (maxSentenceChars - 2) sentence
    have marked : marker.length = 2 := rfl
    have limit : maxSentenceChars = 320 := rfl
    rw [List.length_append, rstrip]
    omega
  · exact not_lt.mp long

theorem contentLength_cutSentence (sentence : Str) : contentLength (cutSentence sentence) ≤ 3840 := by
  have each := contentLength_le (cutSentence sentence) 12
    fun c _ => length_escape_le c
  have short := length_cutSentence sentence
  omega

theorem cost_coreSentences (unicode : Unicode) (sentences : List Str)
    (keywords : List (Str × Nat)) :
    cost (coreSentences unicode statistics sentences keywords) ≤ 11526 := by
  unfold coreSentences
  split_ifs
  · exact Nat.zero_le _
  · extract_lets scored best keep
    have few : keep.length ≤ 3 := by
      rw [List.length_insertionSort, List.length_map]
      exact List.length_take_le _ _
    have bounded := cost_le (keep.map fun index => cutSentence (sentences.getD index [])) 3840 (by
        intro line member
        obtain ⟨index, _, rfl⟩ := List.mem_map.mp member
        exact contentLength_cutSentence _)
    rw [List.length_map] at bounded
    omega

/-- The core sentences, or the first one where none is chosen. -/
theorem cost_core (statistics : Statistics) (unicode : Unicode) (sentences : List Str) (keywords : List (Str × Nat)) :
    cost (if coreSentences unicode statistics sentences keywords = [] then
      [cutSentence (sentences.headD [])] else coreSentences unicode statistics sentences keywords)
      ≤ 11526 := by
  split_ifs
  · have short := contentLength_cutSentence (sentences.headD [])
    rw [cost_cons, cost_nil]
    omega
  · exact cost_coreSentences _ _ _

theorem contentLength_keywordText {keyword : Str × Nat} (small : keyword.2 < 100000) :
    contentLength (keywordText keyword) ≤ 88 := by
  have label := contentLength_displayExcerpt keyword.1
    (show 7 ≤ maxKeywordDisplayBytes by decide)
  have count := contentLength_decimal_le (n := keyword.2) (k := 4) small
  rw [maxKeywordDisplayBytes] at label
  simp only [keywordText, contentLength_append, contentLength_between, maxKeywordDisplayBytes]
  omega

theorem mem_keywords {lowered : List Str} {keyword : Str × Nat}
    (member : keyword ∈ keywords lowered) : keyword.2 ≤ lowered.length := by
  have counted := (List.perm_insertionSort _ _).mem_iff.mp (List.mem_of_mem_take member)
  obtain ⟨word, _, rfl⟩ := List.mem_map.mp counted
  exact List.count_le_length.trans (List.length_filter_le _ _)

theorem cost_keywordLines (fits : labels.Fits) {lowered : List Str}
    (few : lowered.length < 100000) : cost (keywordLines labels (keywords lowered)) ≤ 931 := by
  unfold keywordLines
  split_ifs with none
  · exact Nat.zero_le _
  · have listed : (keywords lowered).map keywordText ≠ [] := by
      rw [ne_eq, List.map_eq_nil_iff]
      exact none
    have joined := contentLength_intercalate (str ", ") listed
    rw [contentLength_between.2.2.2.2.2.2.2.2] at joined
    have bounded := cost_le ((keywords lowered).map keywordText) 88 (by
      intro line member
      obtain ⟨keyword, inside, rfl⟩ := List.mem_map.mp member
      exact contentLength_keywordText (lt_of_le_of_lt (mem_keywords inside) few))
    have count : (keywords lowered).length ≤ 10 := List.length_take_le _ _
    rw [List.length_map, cost] at bounded
    have title := fits.keywords
    simp only [cost_cons, cost_nil, contentLength_append, contentLength_nil, contentLength_between]
    omega

theorem cost_figureLines (fits : labels.Fits) (unicode : Unicode) (text : Str) :
    cost (figureLines labels (figures unicode text)) ≤ 2620 := by
  have seen := seen_figures unicode text
  unfold figureLines
  split_ifs
  · exact Nat.zero_le _
  · have bounded := cost_le ((figures unicode text).map fun figure => str "- " ++ figure) 322 (by
        intro line member
        obtain ⟨figure, inside, rfl⟩ := List.mem_map.mp member
        have label := seen.bounded figure inside
        rw [contentLength_append, contentLength_between.2.2.1]
        omega)
    have count := seen.length_le
    rw [maxFigures] at count
    rw [List.length_map] at bounded
    have title := fits.figures
    simp only [cost_append, cost_cons, cost_nil, contentLength_append, contentLength_nil,
      contentLength_between]
    omega

theorem cost_closing (statistics : Statistics) (language : Language) (fits : labels.Fits)
    {words : List Str} (nonempty : words ≠ []) (few : words.length < 100000)
    (short : (words.map List.length).sum < 100000)
    (parted : 0 < sentences) (parts : sentences < 100000) :
    cost (closing statistics labels language words sentences) ≤ 141 := by
  have number := contentLength_number few language
  have decimals := contentLength_decimal_le (n := sentences) (k := 4) parts
  have sentenceAverage := contentLength_average statistics few parted
  have wordAverage := contentLength_average statistics short
    (List.length_pos_iff.mpr nonempty)
  have words_ := fits.words
  have sentences_ := fits.sentences
  have stats := fits.stats
  have avgSentence := fits.avgSentence
  have avgWord := fits.avgWord
  simp only [closing, cost_cons, cost_nil, contentLength_append, contentLength_nil,
    contentLength_between]
  omega

end Bounds

section Rendered

variable {unicode : Unicode} {statistics : Statistics} {text : Str}

theorem cost_digestLines (statistics : Statistics) (short : text.length < 99999) (worded : words unicode text ≠ []) :
    cost (digestLines unicode statistics text) ≤ 15439 := by
  obtain ⟨total, few⟩ := length_words_le unicode text
  have parts := length_sentences_le unicode text
  have parted := List.length_pos_iff.mpr (sentences_ne_nil worded)
  have fits := (languageOf ((words unicode text).map unicode.lower)).fits
  have lowered : ((words unicode text).map unicode.lower).length < 100000 := by
    rw [List.length_map]
    omega
  have wordsSmall : (words unicode text).length < 100000 := by omega
  have sentencesSmall : (sentences unicode text).length < 100000 := by omega
  unfold digestLines
  extract_lets sentences_ words_ lowered_ language labels score keywords_ core
  have one := cost_opening language fits wordsSmall sentencesSmall
    (statistics.flesch words_ sentences_.length language)
  have two := cost_core statistics unicode sentences_ keywords_
  have three := cost_keywordLines fits lowered
  have four := cost_figureLines fits unicode text
  have five := cost_closing statistics language fits worded wordsSmall (by omega) parted sentencesSmall
  rw [cost_append, cost_append, cost_append, cost_append]
  exact Nat.add_le_add (Nat.add_le_add (Nat.add_le_add (Nat.add_le_add one two) three) four) five

theorem contentLength_cutOutput {labels : Labels} (fits : labels.Fits) (rendered : Str) :
    contentLength (cutOutput labels rendered) ≤ contentLength rendered + 18 := by
  unfold cutOutput
  split_ifs
  · have stripped := contentLength_rstrip_le (rendered.take (maxOutputChars - 16))
    have taken := contentLength_of_prefix (List.take_prefix (maxOutputChars - 16) rendered)
    have lineBreak : contentLength [10] = 2 := by decide
    have truncated := fits.truncated
    rw [contentLength_append, contentLength_append, contentLength_append, lineBreak]
    omega
  · exact Nat.le_add_right _ _

/-- A text with a word has a digest, and the digest is bounded. -/
theorem renderDigest_bounded (statistics : Statistics) (short : text.length < 99999) (worded : words unicode text ≠ []) :
    ∃ rendered, renderDigest unicode statistics text = .ok rendered ∧
      contentLength rendered ≤ 15457 := by
  have sentenced := sentences_ne_nil worded
  refine ⟨_, by rw [renderDigest, if_neg (not_or.mpr ⟨worded, sentenced⟩)], ?_⟩
  have fits := (languageOf ((words unicode text).map unicode.lower)).fits
  have cut := contentLength_cutOutput fits (joinLines (digestLines unicode statistics text))
  have lines := cost_digestLines statistics short worded
  have nonempty : digestLines unicode statistics text ≠ [] := by
    unfold digestLines opening
    exact List.cons_ne_nil _ _
  rw [contentLength_joinLines nonempty] at cut
  omega

theorem renderDigest_ne_nil {rendered : Str}
    (renders : renderDigest unicode statistics text = .ok rendered) : rendered ≠ [] := by
  unfold renderDigest at renders
  split_ifs at renders
  obtain rfl := Except.ok.inj renders
  unfold cutOutput
  split_ifs
  · exact List.append_ne_nil_of_right_ne_nil _ (List.cons_ne_nil _ _)
  · exact List.append_ne_nil_of_right_ne_nil _ (List.cons_ne_nil _ _)

end Rendered

section Signed

variable (unicode : Unicode) (statistics : Statistics)

/-- `TextDigest.run` of a text: a dictionary of its own with the digest under its one key. -/
def runDigest (text : Str) : Answer Returned := do
  let rendered ← renderDigest unicode statistics text
  return .mapping (.ok ⟨.ok true, .ok (.text rendered (.ok (decide (rendered ≠ []))))⟩)

/-- `job-` and 32 hexadecimal digits. -/
def IsJobId (id : Str) : Prop := ∃ digits, id = str "job-" ++ digits ∧ isHexText 32 digits = true

variable {unicode statistics} {interpreter : Interpreter} {handoff : Handoff}
  {authority : Results.WorkerAuthority} {rendered : Str} {now : Int}

theorem contentLength_isHexText {count : Nat} {text : Str} (digits : isHexText count text = true) :
    contentLength text = count := by
  have written := length_dumps_hex digits
  rw [length_dumps_str] at written
  omega

theorem contentLength_jobId {id : Str} (named : IsJobId id) : contentLength id = 36 := by
  obtain ⟨digits, rfl, hexadecimal⟩ := named
  have lead : contentLength (str "job-") = 4 := by decide
  rw [contentLength_append, lead, contentLength_isHexText hexadecimal]

theorem length_dumps_payloadDict (text : Str) :
    (dumps (payloadDict text)).length = contentLength text + 11 := by
  have key : (quote (str "text")).length = 6 := by decide
  rw [payloadDict, length_dumps_dict (List.cons_ne_nil _ _), List.map_singleton, List.sum_singleton,
    fieldLength, key, length_dumps_str]
  omega

/-- The text of a handoff is shorter than its wire. -/
theorem length_payload_le (validated : Results.IsValidated interpreter handoff) :
    handoff.payload.length ≤ maxWireBytes := by
  obtain ⟨_, _, _, _, known⟩ := validated.exists_validated
  obtain ⟨data, rfl, encoded⟩ := known.encoded
  obtain ⟨_, decoded, _⟩ := known.read
  obtain ⟨_, same, short, _⟩ := decodeWire_eq_ok decoded
  obtain rfl := Option.some.inj same
  obtain ⟨_, _, rfl⟩ := canonical_eq_ok.mp encoded
  have carried : (str "payload", payloadDict handoff.payload) ∈ handoff.fields :=
    List.mem_append_left _ (by simp [Handoff.bodyFields])
  have shape : handoff.toDict = .dict handoff.fields := rfl
  rw [length_canonicalBytes, shape, length_dumps_dict (List.ne_nil_of_mem carried)] at short
  have part := List.le_sum_of_mem (List.mem_map_of_mem (f := fieldLength) carried)
  have inside := length_le_contentLength handoff.payload
  rw [fieldLength, length_dumps_payloadDict] at part
  omega

theorem contentLength_workerAgentId {id : Str} (short : id.length ≤ 63)
    (basic : ∀ c ∈ id, c.val < 0x10000) : contentLength id ≤ 378 := by
  have each := contentLength_le id 6
    fun c member => length_escape_le_of_basic (basic c member)
  omega

theorem length_dumps_now (signable : Signable now) : (dumps (.int now)).length ≤ 10 := by
  obtain ⟨positive, bounded⟩ := signable
  rw [Results.maxProducedAt] at bounded
  obtain ⟨n, rfl⟩ := Int.eq_ofNat_of_zero_le positive.le
  rw [length_dumps_nat]
  exact digitCount_le (k := 9) (by omega)

/-- The wire of a bounded digest under identifiers of bounded lengths. -/
theorem length_digestWire (authority : Results.WorkerAuthority)
    (bounded : contentLength rendered ≤ 15457) (named : contentLength handoff.jobId ≤ 36)
    (assigned : contentLength handoff.workerAgentId ≤ 378) (signable : Signable now) (answered : Digest) :
    (Results.producedResult (some rendered) handoff answered Results.succeeded completed authority
      now).toBytes.length ≤ maxWireBytes := by
  have texts : (dumps (.str Results.succeeded)).length = 11 ∧
      (dumps (.str completed)).length = 16 := by decide
  have time := length_dumps_now signable
  rw [Results.length_toBytes_produced, length_dumps_str, length_dumps_str,
    length_dumps_payloadDict, texts.1, texts.2, maxWireBytes]
  omega

/-- A result that fits its wire is signed. -/
theorem successWire_of_short {answered : Digest} (digested : handoffDigest handoff = .ok answered)
    (signable : Signable now) (started : handoff.issuedAt ≤ now)
    (short : (Results.producedResult (some rendered) handoff answered Results.succeeded completed
      authority now).toBytes.length ≤ maxWireBytes) :
    SuccessWire interpreter handoff authority now rendered
      (Results.producedResult (some rendered) handoff answered Results.succeeded completed authority
        now).toBytes := by
  have shallow := Results.depth_resultFields_le (Results.producedResult (some rendered) handoff
    answered Results.succeeded completed authority now)
  have printed : (Value.int now).printable interpreter = true := by
    have small : now.natAbs < 10 ^ 10 := by
      obtain ⟨positive, bounded⟩ := signable
      rw [Results.maxProducedAt] at bounded
      omega
    rw [Value.printable, decide_eq_true_eq]
    exact (length_digits_of_lt 10 small).trans (by decide)
  have encoded : canonical interpreter (Results.producedResult (some rendered) handoff answered
      Results.succeeded completed authority now).toDict = .ok (Results.producedResult
        (some rendered) handoff answered Results.succeeded completed authority now).toBytes := by
    refine canonical_eq_ok.mpr ⟨shallow.trans ?_, ?_, rfl⟩
    · exact (show maxWireDepth ≤ 16 by decide).trans interpreter.recursionLimit_sufficient
    · rw [Results.Result.toDict, Value.printable, Value.printableFields_iff]
      simp only [Results.Result.bodyFields, List.cons_append, List.nil_append,
        List.forall_mem_cons, List.not_mem_nil, false_implies, implies_true, and_true]
      exact ⟨rfl, rfl, rfl, rfl, rfl, rfl, rfl, rfl, printed, rfl⟩
  exact ⟨signable, started, ⟨answered, digested, encoded⟩, _,
    decodeWire_canonical (Results.tidy_resultFields _) (Results.floatless_resultFields _) shallow
      (Results.hasKeys_resultFields _) encoded short⟩

/-- A digest always fits its signed result: whichever sentences are chosen and whatever the
statistics say, the digest of a text with a word is signed for a job id of the usual form and a
worker id of at most 63 characters of the basic plane. -/
theorem digest_fits (validated : Results.IsValidated interpreter handoff)
    (worded : words unicode handoff.payload ≠ []) (named : IsJobId handoff.jobId)
    (assigned : handoff.workerAgentId.length ≤ 63)
    (basic : ∀ c ∈ handoff.workerAgentId, c.val < 0x10000) (signable : Signable now) :
    ∃ rendered answered, renderDigest unicode statistics handoff.payload = .ok rendered ∧
      handoffDigest handoff = .ok answered ∧
      (Results.producedResult (some rendered) handoff answered Results.succeeded completed
        authority now).toBytes.length ≤ maxWireBytes ∧
      (handoff.issuedAt ≤ now → now < handoff.expiresAt →
        conclude interpreter handoff answered (runDigest unicode statistics handoff.payload)
          authority now = .ok (Results.producedResult (some rendered) handoff answered
            Results.succeeded completed authority now).toBytes) := by
  have text := length_payload_le validated
  have small : handoff.payload.length < 99999 := by
    rw [maxWireBytes] at text
    omega
  obtain ⟨rendered, renders, bounded⟩ := renderDigest_bounded statistics small worded
  have digested : handoffDigest handoff = .ok (sha256 handoff.toBytes) :=
    handoffDigest_eq_ok.mpr ⟨validated.hashed, rfl⟩
  have short := length_digestWire authority bounded (contentLength_jobId named).le
    (contentLength_workerAgentId assigned basic) signable (sha256 handoff.toBytes)
  refine ⟨rendered, sha256 handoff.toBytes, renders, digested, short, ?_⟩
  intro started running
  have returns : (Run.mk (runDigest unicode statistics handoff.payload) 0 0).Returns rendered := by
    refine ⟨⟨.ok true, .ok (.text rendered (.ok true))⟩, ?_, rfl, rfl⟩
    change runDigest unicode statistics handoff.payload = _
    rw [runDigest, renders]
    change Except.ok _ = _
    rw [decide_eq_true (renderDigest_ne_nil renders)]
  exact conclude_of_text digested returns running
    (successWire_of_short digested signable started short)

end Signed

section Wide

/-- The letters and digits of a text outside of the basic plane. -/
def wideUnicode : Unicode where
  isAlnum := fun c => 0x10428 ≤ c.val && c.val ≤ 0x1044f || 0x1d7ce ≤ c.val && c.val ≤ 0x1d7ff
  isDecimal := fun c => 0x1d7ce ≤ c.val && c.val ≤ 0x1d7ff
  lower := id
  isAlnum_of_isWhitespace := by
    intro c blank
    simp only [isWhitespace, Bool.or_eq_true, Bool.and_eq_true, decide_eq_true_eq] at blank
    simp only [Bool.or_eq_false_iff, Bool.and_eq_false_iff, decide_eq_false_iff_not]
    omega

/-- The statistics of a text whose sentences are equal. -/
def evenStatistics : Statistics where
  score := fun _ _ => 0
  flesch := fun _ _ _ => 112
  tenths := fun total count => 10 * total / count
  tenths_le := fun _ => Nat.div_le_self _ _

/-- Ten words and eight figures in 320 characters. -/
def wideLine : Str :=
  ((List.range 8).flatMap fun i =>
    List.replicate 10 (Fin.ofNat _ (0x10428 + i)) ++ List.replicate 27 (Fin.ofNat _ (0x1d7d8 + i))) ++
    List.replicate 10 0x10430 ++ 0x1f600 :: List.replicate 13 0x10431

def wideText : Str := [10].intercalate [wideLine, wideLine, wideLine]

section Handed

variable (worker : { id : Str // id ≠ [] })

def wideGrant : Grant :=
  { demoGrant false with
    workerAgentId := worker.val
    texts_nonempty := ⟨by decide, worker.property, by decide, by decide⟩ }

def widePolicy : Policy :=
  { demoPolicy false with
    grants := [wideGrant worker]
    grants_valid := ⟨List.cons_ne_nil _ _, List.nodup_singleton _⟩
    grants_allowed := by
      intro grant member
      rw [List.mem_singleton.mp member]
      exact ⟨List.Subset.refl _, List.mem_singleton_self _⟩ }

def widePresented : Presented where
  subject := str "subject-demo"
  jobId := str "job-0123456789abcdef0123456789abcdef"
  policy := widePolicy worker
  now := 100

def wideHandoff : Handoff :=
  issuedHandoff wideText (widePresented worker) (wideGrant worker) digestSigner

theorem isJobId_wide : IsJobId (wideHandoff worker).jobId :=
  ⟨str "0123456789abcdef0123456789abcdef", rfl, by decide⟩

theorem joinSurrogates_wideText : joinSurrogates wideText = wideText := by decide +kernel

variable {worker}

theorem validated_wide
    (known : (((wideHandoff worker).bodyFields.take 13).map fieldLength).sum ≤ 16000)
    (plain : (widePresented worker).joined = true) :
    Results.IsValidated literalInterpreter (wideHandoff worker) := by
  have issued : issue literalInterpreter (payloadDict wideText) (widePresented worker)
      digestSigner = .ok (wideHandoff worker).toBytes :=
    issue_of_short (by decide +kernel) (List.cons_ne_nil _ _) rfl known rfl
  obtain ⟨read, decoded, accepted⟩ := fromObject_of_issue plain (le_refl 100)
    (show (100 : Int) < 100 + 60 by decide) rfl (fun waits => waits) issued
  rw [joinSurrogates_wideText] at accepted
  exact ⟨_, widePresented worker, digestSigner.verifier,
    .inl (bind_eq_ok.mpr ⟨read, decoded, accepted⟩)⟩

end Handed

theorem words_wide : words wideUnicode wideText ≠ [] := by decide +kernel

/-- The text fits even with the longest id of a worker. -/
theorem digest_fits_demo :
    ∃ rendered answered, renderDigest wideUnicode evenStatistics wideText = .ok rendered ∧
      conclude literalInterpreter (wideHandoff ⟨List.replicate 63 97, by decide⟩) answered
        (runDigest wideUnicode evenStatistics wideText) Results.digestWorker 101 =
          .ok (Results.producedResult (some rendered)
            (wideHandoff ⟨List.replicate 63 97, by decide⟩) answered Results.succeeded completed
            Results.digestWorker 101).toBytes := by
  have validated : Results.IsValidated literalInterpreter
      (wideHandoff ⟨List.replicate 63 97, by decide⟩) :=
    validated_wide (by decide +kernel) (by decide)
  have basic : ∀ c ∈ List.replicate 63 (97 : CodePoint), c.val < 0x10000 := by
    intro c member
    rw [List.eq_of_mem_replicate member]
    decide
  have signable : Signable 101 := ⟨by decide, by decide⟩
  obtain ⟨rendered, answered, renders, _, _, signed⟩ := @digest_fits wideUnicode evenStatistics _ _
    Results.digestWorker _ validated words_wide (isJobId_wide _) List.length_replicate.le basic
    signable
  exact ⟨rendered, answered, renders, signed (by decide) (by decide)⟩

theorem length_escape_wide {c : CodePoint} (wide : 0x10000 ≤ c.val) : (escape c).length = 12 := by
  have apart (n : CodePoint) (narrow : n.val < 0x10000) : c ≠ n := by
    rintro rfl
    omega
  unfold escape
  rw [if_neg (apart _ (by decide)), if_neg (apart _ (by decide)), if_neg (apart _ (by decide)),
    if_neg (apart _ (by decide)), if_neg (apart _ (by decide)), if_neg (apart _ (by decide)),
    if_neg (apart _ (by decide)), if_neg (by omega), codeUnits, if_neg (by omega)]
  rfl

/-- The length of a text, without writing the escapes of its wide characters. -/
theorem contentLength_eq_sum (text : Str) : contentLength text =
    (text.map fun c => if 0x10000 ≤ c.val then 12 else (escape c).length).sum := by
  rw [contentLength_eq, List.length_flatMap]
  refine congrArg List.sum (List.map_congr_left fun c _ => ?_)
  split_ifs with wide
  · exact length_escape_wide wide
  · rfl

/-- Sections as large as they get: three sentences, ten keywords and eight figures. -/
theorem contentLength_wideDigest {rendered : Str}
    (renders : renderDigest wideUnicode evenStatistics wideText = .ok rendered) :
    contentLength rendered = 15326 := by
  rw [renderDigest, if_neg (not_or.mpr ⟨words_wide, sentences_ne_nil words_wide⟩)] at renders
  rw [← Except.ok.inj renders, contentLength_eq_sum]
  decide +kernel

/-- With a worker id of 63 characters outside of the basic plane the result is too large. -/
theorem wide_worker_overflows : ¬ ∀ (unicode : Unicode) (statistics : Statistics)
    (interpreter : Interpreter) (handoff : Handoff) (authority : Results.WorkerAuthority)
    (now : Int), Results.IsValidated interpreter handoff → words unicode handoff.payload ≠ [] →
      IsJobId handoff.jobId → handoff.workerAgentId.length ≤ 63 → Signable now →
      ∀ rendered answered, renderDigest unicode statistics handoff.payload = .ok rendered →
        handoffDigest handoff = .ok answered →
        (Results.producedResult (some rendered) handoff answered Results.succeeded completed
          authority now).toBytes.length ≤ maxWireBytes := by
  intro fits
  let worker : { id : Str // id ≠ [] } := ⟨List.replicate 63 0x10428, by decide⟩
  have validated : Results.IsValidated literalInterpreter (wideHandoff worker) :=
    validated_wide (by decide +kernel) (by decide +kernel)
  have small : wideText.length < 99999 := by decide +kernel
  obtain ⟨rendered, renders, _⟩ := renderDigest_bounded evenStatistics small words_wide
  have short := fits wideUnicode evenStatistics literalInterpreter (wideHandoff worker)
    Results.digestWorker 101 validated words_wide (isJobId_wide worker)
    List.length_replicate.le ⟨by decide, by decide⟩ rendered _ renders
    (handoffDigest_eq_ok.mpr ⟨rfl, rfl⟩)
  have known : (dumps (.str (wideHandoff worker).jobId)).length +
      (dumps (.str (wideHandoff worker).workerAgentId)).length +
      (dumps (.str Results.succeeded)).length + (dumps (.str completed)).length +
      (dumps (.int 101)).length = 826 := by
    decide +kernel
  rw [Results.length_toBytes_produced, length_dumps_payloadDict, contentLength_wideDigest renders,
    maxWireBytes] at short
  omega

end Wide

end Workers

end GeniusNew
