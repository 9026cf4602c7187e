import LocalDesk.Data.Checks
import LocalDesk.Journal.Hiding

/-!
# The limits of a corpus

The corpus is limited three times: a message when its text is sanitized, a session when it is
finalized, and the text of all sessions in the end.  The counts of a session are taken before the
last of these limits.
-/

namespace LocalDesk
namespace Journal

def textChars (messages : List NormalizedMessage) : Nat :=
  (messages.map fun message => message.content.length).sum

def Spoken (messages : List NormalizedMessage) : Prop := ∀ message ∈ messages, message.content ≠ []

theorem textChars_append (messages more : List NormalizedMessage) :
    textChars (messages ++ more) = textChars messages + textChars more := by
  rw [textChars, List.map_append, List.sum_append]
  rfl

theorem Spoken.length_le {messages : List NormalizedMessage} (h : Spoken messages) :
    messages.length ≤ textChars messages := by
  have hcard := List.card_nsmul_le_sum (messages.map fun message => message.content.length) 1
  rw [List.length_map, smul_eq_mul, Nat.mul_one] at hcard
  apply hcard
  intro n hn
  obtain ⟨message, hmessage, rfl⟩ := List.mem_map.mp hn
  exact List.length_pos_iff.mpr (h message hmessage)

theorem sanitizeText_bounds {rawText content : List Char} (h : sanitizeText rawText = some content) :
    content ≠ [] ∧ content.length ≤ maxMessageTextChars := by
  constructor
  · intro hnil
    unfold sanitizeText at h
    dsimp only at h
    split_ifs at h with hdropped hblank
    rw [Option.some.inj h, hnil] at hblank
    exact hblank rfl
  · rw [sanitizeText_eq] at h
    split at h
    · cases h
    · cases h
      exact List.length_take_le _ _

/-- Only the last message that is retained can go past the limit. -/
theorem retain_spec (retainedChars : Nat) (messages : List NormalizedMessage) :
    (retain retainedChars messages).2 = retainedChars + textChars (retain retainedChars messages).1 ∧
      ((retain retainedChars messages).1 = [] ∨ ∃ front last,
        (retain retainedChars messages).1 = front ++ [last] ∧
          retainedChars + textChars front < maxSessionTextChars) := by
  induction messages generalizing retainedChars with
  | nil => exact ⟨rfl, .inl rfl⟩
  | cons message rest ih =>
    unfold retain
    by_cases hfull : maxSessionTextChars ≤ retainedChars
    · rw [if_pos hfull]
      exact ih retainedChars
    · rw [if_neg hfull]
      obtain ⟨hchars, hlast⟩ := ih (retainedChars + message.content.length)
      constructor
      · rw [hchars]
        simp only [textChars, List.map_cons, List.sum_cons]
        omega
      · right
        obtain hnil | ⟨front, last, hfront, hbelow⟩ := hlast
        · refine ⟨[], message, ?_, ?_⟩
          · show message :: _ = _
            rw [hnil]
            rfl
          · show retainedChars + 0 < _
            omega
        · refine ⟨message :: front, last, ?_, ?_⟩
          · show message :: _ = _
            rw [hfront]
            rfl
          · simp only [textChars, List.map_cons, List.sum_cons] at hbelow ⊢
            omega

theorem finalize_messages (record : SessionRecord) : record.finalize.messages =
    if maxSessionTextChars < (retain 0 record.messages).2 then
      cutLast (retain 0 record.messages).1 ((retain 0 record.messages).2 - maxSessionTextChars)
    else (retain 0 record.messages).1 := rfl

/-- A finalized session has the counts that it states, within the limit. -/
structure Stated (session : NormalizedSession) : Prop where
  spoken : Spoken session.messages
  chars : textChars session.messages = session.eligibility.contentChars
  messages : session.messages.length = session.eligibility.substantiveMessages
  limit : textChars session.messages ≤ maxSessionTextChars

theorem stated_finalize (record : SessionRecord) : Stated record.finalize := by
  have hspoken : Spoken record.messages := by
    intro message hmessage
    obtain ⟨text, -, hcontent⟩ := exists_text_of_mem_messages hmessage
    exact (sanitizeText_bounds hcontent).1
  obtain ⟨hchars, hlast⟩ := retain_spec 0 record.messages
  have hretained : Spoken (retain 0 record.messages).1 :=
    fun message hmessage => hspoken message (mem_retain hmessage)
  rw [Nat.zero_add] at hchars
  obtain ⟨messages, hmessages⟩ : ∃ messages, record.finalize.messages = messages := ⟨_, rfl⟩
  have hleft : Spoken messages ∧
      textChars messages = min (retain 0 record.messages).2 maxSessionTextChars := by
    rw [← hmessages, finalize_messages]
    by_cases hover : maxSessionTextChars < (retain 0 record.messages).2
    · rw [if_pos hover]
      obtain hnil | ⟨front, last, hfront, hbelow⟩ := hlast
      · rw [hchars, hnil] at hover
        exact absurd hover (Nat.not_lt_zero _)
      · have hfrontChars := textChars_append front [last]
        have hone : textChars [last] = last.content.length := Nat.add_zero _
        rw [← hfront] at hfrontChars
        have hcut : cutLast (retain 0 record.messages).1
            ((retain 0 record.messages).2 - maxSessionTextChars) = front ++
              [{ last with content := last.content.take (last.content.length -
                ((retain 0 record.messages).2 - maxSessionTextChars)) }] := by
          rw [cutLast, hfront, List.getLast?_concat, List.dropLast_concat]
        rw [hcut]
        constructor
        · intro message hmessage
          obtain hmem | hmem := List.mem_append.mp hmessage
          · exact hretained message (by rw [hfront]; exact List.mem_append_left _ hmem)
          · rw [List.mem_singleton.mp hmem]
            apply List.ne_nil_of_length_pos
            rw [List.length_take]
            omega
        · have hcutChars (content : List Char) :
              textChars [{ last with content }] = content.length := Nat.add_zero _
          rw [textChars_append, hcutChars, List.length_take]
          omega
    · rw [if_neg hover, ← hchars]
      exact ⟨hretained, (Nat.min_eq_left (Nat.le_of_not_lt hover)).symm⟩
  obtain ⟨hleft, hsum⟩ := hleft
  have hlength := hleft.length_le
  have hcontent : record.finalize.eligibility.contentChars =
      min (min (retain 0 record.messages).2 maxSessionTextChars) maxU32 := rfl
  have hcount : record.finalize.eligibility.substantiveMessages = min messages.length maxU32 := by
    rw [← hmessages]
    rfl
  have hwidth : maxSessionTextChars ≤ maxU32 := by decide
  constructor
  · rwa [hmessages]
  · rw [hmessages, hcontent]
    omega
  · rw [hmessages, hcount]
    omega
  · rw [hmessages]
    omega

def textOf (messages : List NormalizedMessage) : List Char :=
  messages.flatMap NormalizedMessage.content

def corpusText (sessions : List NormalizedSession) : List Char :=
  sessions.flatMap fun session => textOf session.messages

theorem length_textOf (messages : List NormalizedMessage) :
    (textOf messages).length = textChars messages :=
  List.length_flatMap

theorem corpusText_cons (session : NormalizedSession) (rest : List NormalizedSession) :
    corpusText (session :: rest) = textOf session.messages ++ corpusText rest :=
  List.flatMap_cons

theorem textOf_filter (messages : List NormalizedMessage) :
    textOf (messages.filter fun message => message.content ≠ []) = textOf messages := by
  induction messages with
  | nil => rfl
  | cons message rest ih =>
    have hcons : textOf (message :: rest) = message.content ++ textOf rest := List.flatMap_cons
    by_cases hempty : message.content = []
    · rw [List.filter_cons_of_neg (by simp [hempty]), ih, hcons, hempty]
      rfl
    · rw [List.filter_cons_of_pos (by simp [hempty]), hcons, ← ih]
      rfl

theorem Spoken.filter_eq {messages : List NormalizedMessage} (h : Spoken messages) :
    (messages.filter fun message => message.content ≠ []) = messages :=
  List.filter_eq_self.mpr fun message hmessage => decide_eq_true (h message hmessage)

/-- The limit after a text of that many characters. -/
def TextLimit.after (self : TextLimit) (chars : Nat) : TextLimit :=
  ⟨min maxTotalTextChars (self.retained + chars),
    self.truncated || decide (maxTotalTextChars < self.retained + chars)⟩

theorem TextLimit.after_zero {limit : TextLimit} (h : limit.retained ≤ maxTotalTextChars) :
    limit.after 0 = limit := by
  rw [after, Nat.add_zero, Nat.min_eq_right h, decide_eq_false (Nat.not_lt.mpr h), Bool.or_false]

theorem TextLimit.after_add (limit : TextLimit) (chars more : Nat) :
    (limit.after chars).after more = limit.after (chars + more) := by
  unfold after
  congr 1
  · dsimp only
    omega
  · rw [Bool.or_assoc]
    congr 1
    rw [Bool.eq_iff_iff, Bool.or_eq_true, decide_eq_true_eq, decide_eq_true_eq, decide_eq_true_eq]
    dsimp only
    omega

/-- The text is kept as it comes until the limit is reached. -/
theorem limitMessages_spec (limit : TextLimit) (messages : List NormalizedMessage)
    (hlimit : limit.retained ≤ maxTotalTextChars) (hspoken : Spoken messages) :
    textOf (limitMessages limit messages).1 =
        (textOf messages).take (maxTotalTextChars - limit.retained) ∧
      (limitMessages limit messages).2 = limit.after (textChars messages) := by
  induction messages generalizing limit with
  | nil => exact ⟨List.take_nil.symm, (TextLimit.after_zero hlimit).symm⟩
  | cons message rest ih =>
    rw [Spoken, List.forall_mem_cons] at hspoken
    have hpos := List.length_pos_iff.mpr hspoken.1
    have hcons (message : NormalizedMessage) (rest : List NormalizedMessage) :
        textOf (message :: rest) = message.content ++ textOf rest := List.flatMap_cons
    have hchars : textChars (message :: rest) = message.content.length + textChars rest := rfl
    rw [hcons, hchars, List.take_append]
    by_cases hfull : maxTotalTextChars ≤ limit.retained
    · obtain ⟨htext, hafter⟩ := ih { limit with truncated := true } hlimit hspoken.2
      have hkept : limitMessages limit (message :: rest) =
          ({ message with content := [] } ::
              (limitMessages { limit with truncated := true } rest).1,
            (limitMessages { limit with truncated := true } rest).2) := by
        rw [limitMessages]
        exact if_pos hfull
      rw [hkept, hcons, htext, hafter, Nat.sub_eq_zero_of_le hfull, List.take_zero, Nat.zero_sub,
        List.take_zero]
      refine ⟨rfl, ?_⟩
      have hcut : decide (maxTotalTextChars <
          limit.retained + (message.content.length + textChars rest)) = true :=
        decide_eq_true (by omega)
      unfold TextLimit.after
      dsimp only
      rw [hcut, Bool.or_true, Bool.true_or]
      congr 1
      omega
    · obtain ⟨keep, hkeep⟩ :
          ∃ keep, keep = min (maxTotalTextChars - limit.retained) message.content.length :=
        ⟨_, rfl⟩
      obtain ⟨htext, hafter⟩ := ih ⟨limit.retained + keep,
        limit.truncated || decide (keep < message.content.length)⟩ (by dsimp only; omega) hspoken.2
      have hkept : limitMessages limit (message :: rest) =
          ({ message with content := message.content.take keep } ::
              (limitMessages ⟨limit.retained + keep,
                limit.truncated || decide (keep < message.content.length)⟩ rest).1,
            (limitMessages ⟨limit.retained + keep,
              limit.truncated || decide (keep < message.content.length)⟩ rest).2) := by
        rw [limitMessages, hkeep]
        exact if_neg hfull
      have hone : limit.after message.content.length = ⟨limit.retained + keep,
          limit.truncated || decide (keep < message.content.length)⟩ := by
        unfold TextLimit.after
        congr 1
        · omega
        · congr 1
          rw [Bool.eq_iff_iff, decide_eq_true_eq, decide_eq_true_eq]
          omega
      rw [hkept, hcons, htext, hafter, ← hone, TextLimit.after_add, hkeep,
        ← List.take_eq_take_min]
      refine ⟨?_, rfl⟩
      congr 2
      unfold TextLimit.after
      dsimp only
      omega

/-- A text within the limit is not touched. -/
theorem limitMessages_whole {limit : TextLimit} {messages : List NormalizedMessage}
    (hfits : limit.retained + textChars messages ≤ maxTotalTextChars) (hspoken : Spoken messages) :
    (limitMessages limit messages).1 = messages := by
  induction messages generalizing limit with
  | nil => rfl
  | cons message rest ih =>
    rw [Spoken, List.forall_mem_cons] at hspoken
    have hpos := List.length_pos_iff.mpr hspoken.1
    have hchars : textChars (message :: rest) = message.content.length + textChars rest := rfl
    rw [hchars] at hfits
    have hkeep : min (maxTotalTextChars - limit.retained) message.content.length =
        message.content.length := by omega
    rw [limitMessages]
    dsimp only
    rw [if_neg (by omega), hkeep, List.take_length, ih (by dsimp only; omega) hspoken.2]

theorem length_limitMessages (limit : TextLimit) (messages : List NormalizedMessage) :
    (limitMessages limit messages).1.length = messages.length := by
  induction messages generalizing limit with
  | nil => rfl
  | cons message rest ih =>
    rw [limitMessages]
    dsimp only
    split_ifs
    · rw [List.length_cons, ih, List.length_cons]
    · rw [List.length_cons, ih, List.length_cons]

/-- A session of the corpus, next to what it was before the text of the corpus was limited. -/
structure CutFrom (session whole : NormalizedSession) : Prop where
  same : session = { whole with messages := session.messages }
  spoken : Spoken session.messages
  text : textOf session.messages <+: textOf whole.messages
  messages : session.messages.length ≤ whole.messages.length

theorem limitSessions_spec (limit : TextLimit) (sessions : List NormalizedSession)
    (hlimit : limit.retained ≤ maxTotalTextChars)
    (hspoken : ∀ session ∈ sessions, Spoken session.messages) :
    List.Forall₂ CutFrom (limitSessions limit sessions).1 sessions ∧
      corpusText (limitSessions limit sessions).1 =
        (corpusText sessions).take (maxTotalTextChars - limit.retained) ∧
      (limitSessions limit sessions).2 = limit.after (corpusText sessions).length := by
  induction sessions generalizing limit with
  | nil => exact ⟨.nil, List.take_nil.symm, (TextLimit.after_zero hlimit).symm⟩
  | cons session rest ih =>
    rw [List.forall_mem_cons] at hspoken
    obtain ⟨htext, hafter⟩ := limitMessages_spec limit session.messages hlimit hspoken.1
    have hnext : (limitMessages limit session.messages).2.retained ≤ maxTotalTextChars := by
      rw [hafter]
      exact Nat.min_le_left _ _
    obtain ⟨hcut, hrest, hlast⟩ := ih (limitMessages limit session.messages).2 hnext hspoken.2
    rw [limitSessions]
    dsimp only
    rw [corpusText_cons, corpusText_cons]
    dsimp only
    rw [textOf_filter, htext, hrest, hlast, hafter, TextLimit.after_add, List.length_append,
      length_textOf, List.take_append, length_textOf]
    refine ⟨.cons ⟨rfl, ?_, ?_, ?_⟩ ?_, ?_, rfl⟩
    · intro message hmessage
      exact of_decide_eq_true (List.mem_filter.mp hmessage).2
    · dsimp only
      rw [textOf_filter, htext]
      exact List.take_prefix _ _
    · exact (List.length_filter_le _ _).trans (length_limitMessages _ _).le
    · rwa [hafter] at hcut
    · congr 2
      unfold TextLimit.after
      dsimp only
      omega

theorem limitSessions_whole {limit : TextLimit} {sessions : List NormalizedSession}
    (hfits : limit.retained + (corpusText sessions).length ≤ maxTotalTextChars)
    (hspoken : ∀ session ∈ sessions, Spoken session.messages) :
    (limitSessions limit sessions).1 = sessions := by
  induction sessions generalizing limit with
  | nil => rfl
  | cons session rest ih =>
    rw [List.forall_mem_cons] at hspoken
    rw [corpusText_cons, List.length_append, length_textOf] at hfits
    obtain ⟨-, hafter⟩ := limitMessages_spec limit session.messages (by omega) hspoken.1
    have hone : (limit.after (textChars session.messages)).retained =
        limit.retained + textChars session.messages := Nat.min_eq_right (by omega)
    rw [limitSessions]
    dsimp only
    rw [limitMessages_whole (by omega) hspoken.1, hspoken.1.filter_eq, hafter,
      ih (by omega) hspoken.2]

section

variable {σ : Type} {updatedAtMs : σ → Int} {sessionId : σ → List Char}

theorem newer_iff (left right : σ) : newer updatedAtMs sessionId left right = true ↔
    updatedAtMs right < updatedAtMs left ∨
      updatedAtMs left = updatedAtMs right ∧ ¬ sessionId right < sessionId left := by
  rw [newer, Bool.or_eq_true, Bool.and_eq_true, decide_eq_true_eq, decide_eq_true_eq,
    Bool.not_eq_true', decide_eq_false_iff_not]

theorem newer_trans (left middle right : σ) (h₁ : newer updatedAtMs sessionId left middle = true)
    (h₂ : newer updatedAtMs sessionId middle right = true) :
    newer updatedAtMs sessionId left right = true := by
  rw [newer_iff] at h₁ h₂ ⊢
  obtain h₁ | ⟨hsame, hid⟩ := h₁
  · left
    omega
  · obtain h₂ | ⟨hsame', hid'⟩ := h₂
    · left
      omega
    · exact .inr ⟨hsame.trans hsame',
        List.not_lt.mpr (List.le_trans (List.not_lt.mp hid) (List.not_lt.mp hid'))⟩

theorem newer_total (left right : σ) : (newer updatedAtMs sessionId left right ||
    newer updatedAtMs sessionId right left) = true := by
  rw [Bool.or_eq_true, newer_iff, newer_iff]
  by_cases hsame : updatedAtMs left = updatedAtMs right
  · by_cases hid : sessionId right < sessionId left
    · exact .inr (.inr ⟨hsame.symm, List.lt_asymm hid⟩)
    · exact .inl (.inr ⟨hsame, hid⟩)
  · omega

end

/-- The kept are the newest of those found, and the others are left out only for want of room. -/
def Selected (found kept : List NormalizedSession) : Prop :=
  ∃ dropped, (kept ++ dropped).Perm found ∧
    (kept ++ dropped).Pairwise (fun left right =>
      newer NormalizedSession.updatedAtMs NormalizedSession.sessionId left right = true) ∧
    kept = (kept ++ dropped).take maxSessions

theorem selected_newest (found : List NormalizedSession) : Selected found
    (newest NormalizedSession.updatedAtMs NormalizedSession.sessionId found) := by
  refine ⟨(found.mergeSort (newer NormalizedSession.updatedAtMs
    NormalizedSession.sessionId)).drop maxSessions, ?_, ?_, ?_⟩
  · rw [newest, List.take_append_drop]
    exact List.mergeSort_perm _ _
  · rw [newest, List.take_append_drop]
    exact List.pairwise_mergeSort newer_trans newer_total _
  · rw [newest, List.take_append_drop]

def textLimitReached : String := "session_corpus_text_limit_reached"

theorem SourceResult.textLimitReached_notMem {σ : Type} (result : SourceResult σ)
    (source : SessionSource) : textLimitReached ∉ result.warnings source := by
  unfold warnings
  intro hmem
  split at hmem
  · obtain ⟨reason, -, heq⟩ := List.mem_map.mp hmem
    have hhead := congrArg (fun warning : String => warning.toList.head?) heq
    cases source <;> simp [SessionSource.name, textLimitReached, String.toList_append] at hhead
  · cases hmem

/-- What the limits make of the sessions that are kept. -/
structure Limited (corpus : JournalCorpus) (kept : List NormalizedSession) : Prop where
  stated : ∀ session ∈ kept, Stated session ∧
    ∀ message ∈ session.messages, message.content.length ≤ maxMessageTextChars
  cut : List.Forall₂ CutFrom corpus.sessions kept
  text : corpusText corpus.sessions = (corpusText kept).take maxTotalTextChars
  warned : textLimitReached ∈ corpus.warnings ↔ maxTotalTextChars < (corpusText kept).length
  whole : textLimitReached ∉ corpus.warnings → corpus.sessions = kept

theorem collect_warnings {env : Environment} {request : JournalFetchRequest}
    {corpus : JournalCorpus} (h : collect env request = .ok corpus) :
    ∃ earlier, textLimitReached ∉ earlier ∧ corpus.warnings = earlier ++
      (enforceCorpusTextLimit ((env.keptRecords request).map SessionRecord.finalize)).2 := by
  unfold collect at h
  obtain ⟨_, -, h⟩ := Checks.bind_ok.mp h
  obtain ⟨_, -, h⟩ := Checks.bind_ok.mp h
  obtain ⟨_, -, h⟩ := Checks.bind_ok.mp h
  obtain ⟨tracked, htracked, h⟩ := Checks.bind_ok.mp h
  have hcorpus := Except.ok.inj h
  refine ⟨SessionSource.all.flatMap fun source => (SourceResult.ofSource env.parseSession
    (env.collectOpencodeSessions request) tracked source).warnings source, ?_, ?_⟩
  · intro hmem
    obtain ⟨source, -, hsource⟩ := List.mem_flatMap.mp hmem
    exact SourceResult.textLimitReached_notMem _ _ hsource
  · rw [← hcorpus, Environment.keptRecords, Environment.records, htracked, ← newest_map,
      ← SourceResult.sessionsOf_map]
    simp only [← SourceResult.ofSource_map]
    rfl

theorem length_content_le {record : SessionRecord} {message : NormalizedMessage}
    (h : message ∈ record.finalize.messages) : message.content.length ≤ maxMessageTextChars := by
  obtain ⟨before, hbefore, hprefix⟩ := finalize_prefix h
  obtain ⟨text, -, hcontent⟩ := exists_text_of_mem_messages hbefore
  exact hprefix.length_le.trans (sanitizeText_bounds hcontent).2

end Journal
end LocalDesk
