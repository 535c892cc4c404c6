import BatchRun.Config
import BatchRun.Proofs.Text.Numeral
import BatchRun.Proofs.Text.Words

/-! # What the variables say

Each setting goes by the text of its own variable. It is what the text says: the number whose
decimal numeral it is, or the value whose name it spells, in letters of any case, with any blanks
around it. If the text says nothing of the kind, or there is none, the setting is the usual one. So
settings that are written into variables are read back as they were.
-/

namespace BatchRun

open Text

/-! ## What a text says -/

/-- The text is a numeral of a number below a bound, with blanks around it. -/
def SaysNumber (bound : Nat) (text : String) (number : Nat) : Prop :=
  ∃ core, Padded text core ∧ IsNumeral core.toList number ∧ number < bound

/-- The text spells the name of a value, with blanks around it. -/
def SaysName {α : Type} (name : α → String) (text : String) (value : α) : Prop :=
  ∃ core, Padded text core ∧ Spells core (name value)

section Texts

variable {bound number : Nat} {text kind : String}

private theorem readNumeral_trim_eq_ok_iff (positive : 0 < bound) :
    readNumeral bound (trim text) = .ok number ↔ SaysNumber bound text number := by
  rw [readNumeral_eq_ok_iff positive]
  constructor
  · exact fun numeral => ⟨trim text, padded_trim text, numeral⟩
  · rintro ⟨core, padded, numeral, small⟩
    rw [(padded_iff numeral.not_isBlank).1 padded]
    exact ⟨numeral, small⟩

private theorem map_eq_ok_iff {ε α β : Type} {result : Except ε α} {convert : α → β} {value : β} :
    result.map convert = .ok value ↔ ∃ read, result = .ok read ∧ convert read = value := by
  cases result with
  | error => simp [Except.map]
  | ok => simp [Except.map]

/-- Numbers that are read as machine words are those that fit into the words. -/
theorem map_readNumeral_trim_eq_ok_iff {α : Type} {ofNat : Nat → α} {toNat : α → Nat}
    (positive : 0 < bound) (toNat_ofNat : ∀ number < bound, toNat (ofNat number) = number)
    (ofNat_toNat : ∀ value, ofNat (toNat value) = value) {value : α} :
    (readNumeral bound (trim text)).map ofNat = .ok value ↔
      SaysNumber bound text (toNat value) := by
  rw [map_eq_ok_iff, ← readNumeral_trim_eq_ok_iff positive]
  constructor
  · rintro ⟨number, read, rfl⟩
    obtain ⟨-, -, -, small⟩ := (readNumeral_trim_eq_ok_iff positive).1 read
    rwa [toNat_ofNat number small]
  · exact fun read => ⟨toNat value, read, ofNat_toNat value⟩

private theorem readUInt32_trim_eq_ok_iff {value : UInt32} :
    readUInt32 (trim text) = .ok value ↔ SaysNumber UInt32.size text value.toNat :=
  map_readNumeral_trim_eq_ok_iff (by decide) (fun _ => UInt32.toNat_ofNat_of_lt')
    fun _ => UInt32.ofNat_toNat

private theorem readUInt64_trim_eq_ok_iff {value : UInt64} :
    readUInt64 (trim text) = .ok value ↔ SaysNumber UInt64.size text value.toNat :=
  map_readNumeral_trim_eq_ok_iff (by decide) (fun _ => UInt64.toNat_ofNat_of_lt')
    fun _ => UInt64.ofNat_toNat

/-- The usual numeral of a number says the number. -/
theorem saysNumber_of_padded (padded : Padded text (toString number)) (small : number < bound) :
    SaysNumber bound text number := by
  refine ⟨toString number, padded, ?_, small⟩
  rw [Nat.toString_eq_repr, Nat.toList_repr]
  exact isNumeral_toDigits number

/-- A numeral of a number beyond the range says nothing. -/
theorem not_saysNumber_of_le {core : String} (padded : Padded text core)
    (numeral : IsNumeral core.toList number) (large : bound ≤ number) (other : Nat) :
    ¬ SaysNumber bound text other := by
  rintro ⟨core', padded', numeral', small⟩
  obtain rfl : core = core' :=
    ((padded_iff numeral.not_isBlank).1 padded).symm.trans
      ((padded_iff numeral'.not_isBlank).1 padded')
  rw [numeral.unique numeral'] at large
  omega

/-- Values are found by their names, which are in lower case. -/
structure Named {α : Type} (name : α → String) (ofName? : String → Option α) : Prop where
  found : ∀ {word value}, ofName? word = some value ↔ word = name value
  lower : ∀ value, ∀ d ∈ (name value).toList, d.isLower = true

private theorem parseWord_trim_eq_ok_iff {α : Type} {name : α → String}
    {ofName? : String → Option α} (named : Named name ofName?) {value : α} :
    parseWord kind ofName? (trim text) = .ok value ↔ SaysName name text value := by
  have reads : parseWord kind ofName? (trim text) = .ok value ↔
      Spells (trim (trim text)) (name value) := by
    rw [spells_iff (named.lower value), ← named.found, parseWord]
    cases ofName? (lowerAscii (trim (trim text))) <;> simp
  rw [reads]
  constructor
  · exact fun spells => ⟨_, (padded_trim text).trans (padded_trim _), spells⟩
  · rintro ⟨core, padded, spells⟩
    have solid := spells.not_isBlank (named.lower value)
    rwa [(padded_iff solid).1 ((padded_trim_iff solid).2 padded)]

end Texts

/-- Strategies are named one by one. -/
theorem BackoffStrategy.named : Named name ofName? where
  found := by
    intro word value
    constructor
    · intro found
      unfold ofName? at found
      split at found <;> cases found <;> rfl
    · rintro rfl
      exact ofName?_name value
  lower := by
    intro value
    cases value <;> simp [name]

private theorem BackoffStrategy.parse_trim_eq_ok_iff {text : String} {strategy : BackoffStrategy} :
    parse (trim text) = .ok strategy ↔ SaysName name text strategy :=
  parseWord_trim_eq_ok_iff named

theorem ExecutorKind.named : Named name ofName? where
  found := by
    intro word value
    constructor
    · intro found
      unfold ofName? at found
      split at found <;> cases found <;> rfl
    · rintro rfl
      cases value <;> rfl
  lower := by
    intro value
    cases value <;> simp [name]

private theorem ExecutorKind.parse_trim_eq_ok_iff {text : String} {kind : ExecutorKind} :
    parse (trim text) = .ok kind ↔ SaysName name text kind :=
  parseWord_trim_eq_ok_iff named

/-! ## Settings and their variables -/

namespace LauncherConfig

/-- A setting goes by the text of one variable alone. It is what the text means, and the usual one
if there is no text or the text means nothing. -/
structure Governs {β : Type} (key : String) (Means : String → β → Prop)
    (setting : LauncherConfig → β) : Prop where
  own : ∀ lookup other, lookup key = other key →
    setting (ofVariables lookup) = setting (ofVariables other)
  meant : ∀ lookup text value, lookup key = some text → Means text value →
    setting (ofVariables lookup) = value
  otherwise : ∀ lookup, (∀ text value, lookup key = some text → ¬ Means text value) →
    setting (ofVariables lookup) = setting usual

section Settings

variable {ε α β : Type} {key : String} {Means : String → β → Prop} {setting : LauncherConfig → β}

/-- A setting that is made of what is read from one variable goes by that variable. -/
theorem governs_of_settingOr {read : String → Except ε α} (shape : α → β) (ordinary : α)
    (reads : ∀ text value, Means text value ↔
      ∃ word, read (trim text) = .ok word ∧ shape word = value)
    (made : ∀ lookup, setting (ofVariables lookup) = shape (settingOr read ordinary (lookup key)))
    (default : setting usual = shape ordinary) : Governs key Means setting where
  own lookup other same := by rw [made, made, same]
  meant lookup text value set means := by
    obtain ⟨word, done, shaped⟩ := (reads text value).1 means
    simp only [made, set, settingOr, done, shaped]
  otherwise lookup silent := by
    rw [made, default]
    cases set : lookup key with
    | none => rfl
    | some text =>
      cases done : read (trim text) with
      | error => simp only [settingOr, done]
      | ok word => exact absurd ((reads text _).2 ⟨word, done, rfl⟩) (silent text _ set)

/-- A setting that is read from one variable goes by that variable. -/
theorem governs_of_read {read : String → Except ε β} (ordinary : β)
    (reads : ∀ text value, Means text value ↔ read (trim text) = .ok value)
    (made : ∀ lookup, setting (ofVariables lookup) = settingOr read ordinary (lookup key))
    (default : setting usual = ordinary) : Governs key Means setting := by
  refine governs_of_settingOr id ordinary (fun text value => ?_) made default
  simp [reads]

end Settings

/-- The text is a numeral of a number of 32 bits. There is at least one attempt. -/
def MeansAttempts (text : String) (attempts : UInt32) : Prop :=
  ∃ number : UInt32, SaysNumber UInt32.size text number.toNat ∧ max number 1 = attempts

/-- The text is a numeral of a number of 64 bits, which counts milliseconds. -/
def MeansMillis (text : String) (delay : Duration) : Prop :=
  ∃ millis : UInt64, SaysNumber UInt64.size text millis.toNat ∧ .ofMillis millis = delay

/-- The text is a numeral of a number of 64 bits. -/
def MeansCount (text : String) (count : UInt64) : Prop :=
  SaysNumber UInt64.size text count.toNat

private theorem meansAttempts_iff (text : String) (attempts : UInt32) :
    MeansAttempts text attempts ↔
      ∃ number, readUInt32 (trim text) = .ok number ∧ max number 1 = attempts :=
  exists_congr fun _ => and_congr_left' readUInt32_trim_eq_ok_iff.symm

private theorem meansMillis_iff (text : String) (delay : Duration) : MeansMillis text delay ↔
    ∃ millis, readUInt64 (trim text) = .ok millis ∧ .ofMillis millis = delay :=
  exists_congr fun _ => and_congr_left' readUInt64_trim_eq_ok_iff.symm

/-- The usual delays are in whole milliseconds. -/
theorem ofMillis_usual_baseDelay : Duration.ofMillis
    (UInt64.ofNat RetryPolicy.usual.baseDelay.toMillis) = RetryPolicy.usual.baseDelay := by
  decide

private theorem ofMillis_usual_maxDelay : Duration.ofMillis
    (UInt64.ofNat RetryPolicy.usual.maxDelay.toMillis) = RetryPolicy.usual.maxDelay := by
  decide

private theorem governs_maxAttempts :
    Governs maxAttemptsVariable MeansAttempts fun config => config.retryPolicy.maxAttempts :=
  governs_of_settingOr (max · 1) RetryPolicy.usual.maxAttempts meansAttempts_iff (fun _ => rfl) rfl

private theorem governs_baseDelay :
    Governs baseDelayVariable MeansMillis fun config => config.retryPolicy.baseDelay :=
  governs_of_settingOr Duration.ofMillis (.ofNat RetryPolicy.usual.baseDelay.toMillis)
    meansMillis_iff (fun _ => rfl) ofMillis_usual_baseDelay.symm

private theorem governs_maxDelay :
    Governs maxDelayVariable MeansMillis fun config => config.retryPolicy.maxDelay :=
  governs_of_settingOr Duration.ofMillis (.ofNat RetryPolicy.usual.maxDelay.toMillis)
    meansMillis_iff (fun _ => rfl) ofMillis_usual_maxDelay.symm

private theorem governs_strategy : Governs backoffVariable (SaysName BackoffStrategy.name)
    fun config => config.retryPolicy.strategy :=
  governs_of_read RetryPolicy.usual.strategy
    (fun _ _ => BackoffStrategy.parse_trim_eq_ok_iff.symm) (fun _ => rfl) rfl

private theorem governs_executor : Governs executorVariable (SaysName ExecutorKind.name)
    fun config => config.executor :=
  governs_of_read usual.executor (fun _ _ => ExecutorKind.parse_trim_eq_ok_iff.symm)
    (fun _ => rfl) rfl

private theorem governs_maxConcurrent :
    Governs maxConcurrentVariable MeansCount fun config => config.maxConcurrent :=
  governs_of_read usual.maxConcurrent (fun _ _ => readUInt64_trim_eq_ok_iff.symm)
    (fun _ => rfl) rfl

/-! ## Settings that are read back -/

/-- The variables are set to these settings: to their numbers in decimal and to their names in
letters of any case, with any blanks around them. Delays are in whole milliseconds. -/
structure Shows (lookup : String → Option String) (config : LauncherConfig) : Prop where
  maxAttempts : ∃ text, lookup maxAttemptsVariable = some text ∧
    Padded text (toString config.retryPolicy.maxAttempts)
  baseDelay : ∃ millis text, config.retryPolicy.baseDelay = .ofMillis millis ∧
    lookup baseDelayVariable = some text ∧ Padded text (toString millis)
  maxDelay : ∃ millis text, config.retryPolicy.maxDelay = .ofMillis millis ∧
    lookup maxDelayVariable = some text ∧ Padded text (toString millis)
  strategy : ∃ text word, lookup backoffVariable = some text ∧ Padded text word ∧
    Spells word config.retryPolicy.strategy.name
  executor : ∃ text word, lookup executorVariable = some text ∧ Padded text word ∧
    Spells word config.executor.name
  maxConcurrent : ∃ text, lookup maxConcurrentVariable = some text ∧
    Padded text (toString config.maxConcurrent)

private theorem toNat_max_one (number : UInt32) : (max number 1).toNat = max number.toNat 1 :=
  UInt32.toNat_max ..

private theorem max_one_eq_self {number : UInt32} (positive : 1 ≤ number) :
    max number 1 = number := by
  have bound : 1 ≤ number.toNat := UInt32.le_iff_toNat_le.1 positive
  exact UInt32.toNat_inj.1 ((toNat_max_one number).trans (Nat.max_eq_left bound))

private theorem one_le_maxAttempts (lookup : String → Option String) :
    1 ≤ (ofVariables lookup).retryPolicy.maxAttempts := by
  refine UInt32.le_iff_toNat_le.2 ?_
  exact (Nat.le_max_right ..).trans_eq (toNat_max_one _).symm

/-- Settings are read back from the variables that show them. -/
theorem ofVariables_of_shows {lookup : String → Option String} {config : LauncherConfig}
    (attempts : 1 ≤ config.retryPolicy.maxAttempts) (shows : Shows lookup config) :
    ofVariables lookup = { config with
      retryPolicy := { config.retryPolicy with jitter := RetryPolicy.usual.jitter } } := by
  have maxAttempts : (ofVariables lookup).retryPolicy.maxAttempts =
      config.retryPolicy.maxAttempts := by
    obtain ⟨text, set, padded⟩ := shows.maxAttempts
    refine governs_maxAttempts.meant lookup text _ set ⟨config.retryPolicy.maxAttempts, ?_, ?_⟩
    · exact saysNumber_of_padded padded config.retryPolicy.maxAttempts.toNat_lt_size
    · exact max_one_eq_self attempts
  have baseDelay : (ofVariables lookup).retryPolicy.baseDelay = config.retryPolicy.baseDelay := by
    obtain ⟨millis, text, whole, set, padded⟩ := shows.baseDelay
    refine governs_baseDelay.meant lookup text _ set ⟨millis, ?_, whole.symm⟩
    exact saysNumber_of_padded padded millis.toNat_lt_size
  have maxDelay : (ofVariables lookup).retryPolicy.maxDelay = config.retryPolicy.maxDelay := by
    obtain ⟨millis, text, whole, set, padded⟩ := shows.maxDelay
    refine governs_maxDelay.meant lookup text _ set ⟨millis, ?_, whole.symm⟩
    exact saysNumber_of_padded padded millis.toNat_lt_size
  have strategy : (ofVariables lookup).retryPolicy.strategy = config.retryPolicy.strategy := by
    obtain ⟨text, word, set, spelled⟩ := shows.strategy
    exact governs_strategy.meant lookup text _ set ⟨word, spelled⟩
  have executor : (ofVariables lookup).executor = config.executor := by
    obtain ⟨text, word, set, spelled⟩ := shows.executor
    exact governs_executor.meant lookup text _ set ⟨word, spelled⟩
  have maxConcurrent : (ofVariables lookup).maxConcurrent = config.maxConcurrent := by
    obtain ⟨text, set, padded⟩ := shows.maxConcurrent
    exact governs_maxConcurrent.meant lookup text _ set
      (saysNumber_of_padded padded config.maxConcurrent.toNat_lt_size)
  obtain ⟨⟨_, _, _, _, _⟩, _, _⟩ := config
  simp only at maxAttempts baseDelay maxDelay strategy executor maxConcurrent ⊢
  rw [← maxAttempts, ← baseDelay, ← maxDelay, ← strategy, ← executor, ← maxConcurrent]
  rfl

/-- Each of the six settings goes by its own variable, and is the usual one unless the text of that
is a numeral within the range or spells a name. A numeral beyond the range is as good as none. There
is at least one attempt. Settings are read back as they were from variables that show them; what is
read of the jitter is always the usual one. -/
theorem settings_go_by_variables :
    (Governs maxAttemptsVariable MeansAttempts (fun config => config.retryPolicy.maxAttempts) ∧
      Governs baseDelayVariable MeansMillis (fun config => config.retryPolicy.baseDelay) ∧
      Governs maxDelayVariable MeansMillis (fun config => config.retryPolicy.maxDelay) ∧
      Governs backoffVariable (SaysName BackoffStrategy.name)
        (fun config => config.retryPolicy.strategy) ∧
      Governs executorVariable (SaysName ExecutorKind.name) (fun config => config.executor) ∧
      Governs maxConcurrentVariable MeansCount (fun config => config.maxConcurrent)) ∧
    (∀ bound text core number, Padded text core → IsNumeral core.toList number → bound ≤ number →
      ∀ other, ¬ SaysNumber bound text other) ∧
    (∀ lookup, 1 ≤ (ofVariables lookup).retryPolicy.maxAttempts) ∧
    ∀ lookup config, 1 ≤ config.retryPolicy.maxAttempts → Shows lookup config →
      ofVariables lookup = { config with
        retryPolicy := { config.retryPolicy with jitter := RetryPolicy.usual.jitter } } :=
  ⟨⟨governs_maxAttempts, governs_baseDelay, governs_maxDelay, governs_strategy, governs_executor,
    governs_maxConcurrent⟩, fun _ _ _ _ => not_saysNumber_of_le, one_le_maxAttempts,
    fun _ _ => ofVariables_of_shows⟩

/-- Eight workers, and five attempts with delays that grow from 10 to 200 milliseconds. -/
def tuned : LauncherConfig where
  retryPolicy :=
    { RetryPolicy.exponential 5 (.ofMillis 10) (.ofMillis 200) with strategy := .linear }
  executor := .thread
  maxConcurrent := 8

/-- Variables with blanks and capital letters in them. -/
def tunedVariables (key : String) : Option String :=
  if key = maxAttemptsVariable then some "5"
  else if key = baseDelayVariable then some " 10"
  else if key = maxDelayVariable then some "200\n"
  else if key = backoffVariable then some "\tLinear "
  else if key = executorVariable then some "THREAD"
  else if key = maxConcurrentVariable then some "8"
  else none

/-- All six variables are set, with blanks and capitals. -/
theorem settings_go_by_variables_tuned :
    Shows tunedVariables tuned ∧ ofVariables tunedVariables = tuned := by
  have plain (text : String) : Padded text text := ⟨[], [], by simp, nofun, nofun⟩
  have shows : Shows tunedVariables tuned := {
    maxAttempts := ⟨"5", by decide, plain _⟩
    baseDelay := ⟨10, " 10", rfl, by decide, [' '], [], rfl, by simp [isBlank], nofun⟩
    maxDelay := ⟨200, "200\n", rfl, by decide, [], ['\n'], rfl, nofun, by simp [isBlank]⟩
    strategy := ⟨"\tLinear ", "Linear", by decide,
      ⟨['\t'], [' '], rfl, by simp [isBlank], by simp [isBlank]⟩,
      (spells_iff (BackoffStrategy.named.lower _)).2 rfl⟩
    executor := ⟨"THREAD", "THREAD", by decide, plain _,
      (spells_iff (ExecutorKind.named.lower _)).2 rfl⟩
    maxConcurrent := ⟨"8", by decide, plain _⟩ }
  obtain ⟨-, -, -, back⟩ := settings_go_by_variables
  exact ⟨shows, back tunedVariables tuned (by decide) shows⟩

end LauncherConfig

end BatchRun
