import RecordScan.Proofs.Command.Tokens

/-!
Contract: command lines with a delimiter.

Owns: that `--delimiter=` with any text behind it is that option, and no misuse of another
level (`Options.classify_delimiter`); and that a command line which makes a job makes the same
job, with this delimiter, when the option is added (`Job.prepare_delimiter`).
-/

namespace RecordScan

namespace Options

/-! ## The delimiter option -/

theorem equals_notMem_names (effect : Effect) :
    ∀ name ∈ effect.names, 0x3D ∉ Text.ofString name := by
  cases effect <;> decide

/-- An argument with an equals sign is not itself the spelling of an option. -/
theorem lookup_of_equals (effects : List Effect) {raw : Text} (hasEquals : 0x3D ∈ raw) :
    (spellings effects).lookup raw = none := by
  rw [List.lookup_eq_none_iff]
  intro spelling member
  obtain ⟨effect, -, isSpelling⟩ := List.mem_flatMap.mp member
  obtain ⟨name, isName, rfl⟩ := List.mem_map.mp isSpelling
  rw [bne_iff_ne]
  rintro rfl
  exact equals_notMem_names effect _ isName hasEquals

theorem delimiter_eq_cons (value : Text) :
    Text.ofString "--delimiter=" ++ value =
      0x2D :: 0x2D :: (Text.ofString "delimiter=" ++ value) :=
  rfl

theorem equals_mem_delimiter (value : Text) : 0x3D ∈ Text.ofString "--delimiter=" ++ value :=
  List.mem_append_left value (by decide)

theorem delimiter_ne_dashes (value : Text) : Text.ofString "--delimiter=" ++ value ≠ dashes := by
  intro same
  rw [delimiter_eq_cons] at same
  cases same

theorem partition_delimiter (value : Text) :
    partition (Text.ofString "--delimiter=" ++ value) =
      (Text.ofString "--delimiter", some value) :=
  rfl

/-- The option takes what stands behind its equals sign as its value, whatever it is. -/
theorem classify_delimiter (command : Command) (value : Text) :
    classify (commandEffects command) (Text.ofString "--delimiter=" ++ value) =
      .ok (.option (Text.ofString "--delimiter=" ++ value) .delimiter (some value)) := by
  have notSpelling := lookup_of_equals (commandEffects command) (equals_mem_delimiter value)
  have isSpelling : (spellings (commandEffects command)).lookup (Text.ofString "--delimiter") =
      some .delimiter := by
    cases command <;> decide
  have isPartition := partition_delimiter value
  rw [delimiter_eq_cons] at notSpelling isPartition ⊢
  simp only [classify, notSpelling, isPartition, isSpelling]
  rfl

/-- Before the name of a command there is no such option, and it is no misuse either. -/
theorem exists_classify_delimiter (value : Text) :
    ∃ token, classify topEffects (Text.ofString "--delimiter=" ++ value) = .ok token := by
  have notSpelling := lookup_of_equals topEffects (equals_mem_delimiter value)
  have notName : (spellings topEffects).lookup (Text.ofString "--delimiter") = none := by decide
  have isPartition := partition_delimiter value
  have noCandidate : candidates topEffects (Text.ofString "--delimiter=" ++ value) = [] := by
    rw [delimiter_eq_cons] at isPartition ⊢
    simp only [candidates, isPartition]
    rfl
  rw [delimiter_eq_cons] at notSpelling isPartition noCandidate ⊢
  simp only [classify, notSpelling, isPartition, notName, noCandidate]
  split
  · exact ⟨_, rfl⟩
  · dsimp only [Option.isSome]
    split
    · exact ⟨_, rfl⟩
    · exact ⟨_, rfl⟩

/-! ## Options leave the input alone -/

theorem Arguments.input_set {arguments next : Arguments} {effect : Effect} {value : Text}
    (applied : arguments.set effect value = .ok next) : next.input = arguments.input := by
  cases effect with
  | logLevel | delimiter | maxSegments =>
      obtain ⟨given, -, rfl⟩ := exists_of_map_eq_ok applied
      rfl
  | help | bytes | summary =>
      cases applied
      rfl

theorem Arguments.input_setAttached {arguments next : Arguments} {raw : Text} {effect : Effect}
    {attached : Text} (applied : arguments.setAttached raw effect attached = .ok next) :
    next.input = arguments.input := by
  unfold setAttached at applied
  split at applied
  · exact input_set applied
  · split at applied
    · cases applied
    · cases applied

theorem Arguments.input_turnOn {arguments next : Arguments} {effect : Effect}
    (applied : arguments.turnOn effect = .ok next) : next.input = arguments.input := by
  cases effect with
  | help => cases applied
  | bytes | summary | logLevel | delimiter | maxSegments =>
      cases applied
      rfl

/-- A lone token gives an input only if it is an argument. -/
theorem readCommand_singleton {token : Token} {read : Arguments} {input : Text}
    (answered : readCommand .empty [token] = .ok read) (isInput : read.input = some input) :
    token = .argument input ∧ read = { Arguments.empty with input := some input } := by
  cases token with
  | argument raw =>
      cases answered
      cases isInput
      exact ⟨rfl, rfl⟩
  | separator =>
      cases answered
      cases isInput
  | unknown raw =>
      cases answered
      cases isInput
  | option raw effect attached =>
      have noInput : read.input = Arguments.empty.input := by
        cases attached with
        | some attached =>
            cases applied : Arguments.empty.setAttached raw effect attached with
            | error exit =>
                simp only [readCommand, applied] at answered
                cases answered
            | ok next =>
                simp only [readCommand, applied] at answered
                cases answered
                exact Arguments.input_setAttached applied
        | none =>
            simp only [readCommand] at answered
            split at answered
            · cases answered
            · cases applied : Arguments.empty.turnOn effect with
              | error exit =>
                  rw [applied] at answered
                  cases answered
              | ok next =>
                  rw [applied] at answered
                  cases answered
                  exact Arguments.input_turnOn applied
      cases isInput.symm.trans noInput

/-! ## Requests -/

theorem readRequest_of_tokens {command : Command} {arguments : List Text} {found : List Token}
    {read : Arguments} {input : Text}
    (told : tokens (commandEffects command) arguments = .ok found)
    (answered : readCommand .empty found = .ok read) (isInput : read.input = some input) :
    readRequest command arguments = .ok (read.request command input, read.unrecognized) := by
  have toldAt : tokensAt (some command) (commandEffects command) arguments = .ok found := by
    rw [tokensAt, told]
    rfl
  have answeredAt : atLevel (some command) (readCommand .empty found) = .ok read := by
    rw [answered]
    rfl
  simp only [readRequest, toldAt, bind_ok, answeredAt, isInput]
  rfl

/-- An input alone makes a request only if it is told apart as an argument. -/
theorem classify_of_readRequest {command : Command} {path : Text} {answer : Request × List Text}
    (requested : readRequest command [path] = .ok answer) :
    path ≠ dashes ∧ classify (commandEffects command) path = .ok (.argument path) ∧
      answer = (⟨command, path, none, none, false, false⟩, []) := by
  obtain ⟨found, read, input, told, answered, isInput, rfl⟩ := exists_of_readRequest requested
  have areTyped := tokens_raw told
  rw [tokens] at told
  split at told
  · cases told
    cases answered
    cases isInput
  · next notSeparator =>
      obtain ⟨token, classified, later⟩ := exists_of_bind_eq_ok told
      cases later
      obtain ⟨isArgument, isRead⟩ := readCommand_singleton answered isInput
      subst isArgument isRead
      cases areTyped
      exact ⟨notSeparator, classified, rfl⟩

/-- The value of an option whose text is taken as it is. -/
def Given.typed (raw : Text) : Given Text :=
  if raw = dashes then .emptied else .value raw

theorem Given.read_ok (raw : Text) : Given.read .ok raw = .ok (typed raw) := by
  unfold Given.read typed
  split
  · rfl
  · rfl

/-- The option sets the delimiter and leaves the rest of the request as it is. -/
theorem readRequest_delimiter {command : Command} {path : Text} (notSeparator : path ≠ dashes)
    (isArgument : classify (commandEffects command) path = .ok (.argument path)) (raw : Text) :
    readRequest command [path, Text.ofString "--delimiter=" ++ raw] =
      .ok (⟨command, path, some (.typed raw), none, false, false⟩, []) := by
  let option : Text := Text.ofString "--delimiter=" ++ raw
  have told : tokens (commandEffects command) [path, option] =
      .ok [.argument path, .option option .delimiter (some raw)] := by
    simp only [tokens, if_neg notSeparator, option, if_neg (delimiter_ne_dashes raw), isArgument,
      classify_delimiter]
    rfl
  have applied : Arguments.setAttached { Arguments.empty with input := some path }
      option .delimiter raw =
      .ok { Arguments.empty with input := some path, delimiter := some (.typed raw) } := by
    show (Given.read .ok raw >>= _) = _
    rw [Given.read_ok]
    rfl
  have answered : readCommand .empty [.argument path, .option option .delimiter (some raw)] =
      .ok { Arguments.empty with input := some path, delimiter := some (.typed raw) } := by
    show (Arguments.setAttached { Arguments.empty with input := some path }
      option .delimiter raw >>= _) = _
    rw [applied]
    rfl
  exact readRequest_of_tokens told answered rfl

/-! ## Invocations -/

/-- The name of a command as it is typed. -/
def typedName (command : Command) : Text :=
  Text.ofString command.name

theorem typedName_ne_dashes (command : Command) : typedName command ≠ dashes := by
  cases command <;> decide

/-- The name of a command is an argument, and all that follows it is left to the command. -/
theorem read_command {command : Command} {rest : List Text} {found : List Token}
    (told : tokens topEffects rest = .ok found) :
    read (typedName command :: rest) =
      (readRequest command rest >>= fun answer =>
        checkRecognized answer.2 >>= fun _ => return ⟨none, some answer.1⟩) := by
  have isName : tokens topEffects (typedName command :: rest) =
      .ok (.argument (typedName command) :: found) := by
    have isArgument : classify topEffects (typedName command) =
        .ok (.argument (typedName command)) := by
      cases command <;> rfl
    simp only [tokens, if_neg (typedName_ne_dashes command), isArgument, told]
    rfl
  have isTop : tokensAt none topEffects (typedName command :: rest) =
      .ok (.argument (typedName command) :: found) := by
    rw [tokensAt, isName]
    rfl
  have isCommand : Command.ofName? (typedName command) = some command := by
    cases command <;> decide
  have isRest := tokens_raw told
  have isLeft : atLevel none (readTop .empty (.argument (typedName command) :: found)) =
      .ok (.empty, some (typedName command, rest)) := by
    rw [← isRest]
    rfl
  simp only [read, isTop, bind_ok, isLeft, isCommand]
  rfl

theorem exists_of_read {command : Command} {rest : List Text} {invocation : Invocation}
    (accepted : read (typedName command :: rest) = .ok invocation) :
    ∃ found request, tokens topEffects rest = .ok found ∧
      readRequest command rest = .ok (request, []) ∧ invocation = ⟨none, some request⟩ := by
  have told : ∃ found, tokens topEffects rest = .ok found := by
    obtain ⟨found, told, -⟩ := exists_of_bind_eq_ok accepted
    replace told := ok_of_mapError told
    rw [tokens, if_neg (typedName_ne_dashes command)] at told
    obtain ⟨first, -, later⟩ := exists_of_bind_eq_ok told
    obtain ⟨others, isRest, -⟩ := exists_of_bind_eq_ok later
    exact ⟨others, isRest⟩
  obtain ⟨found, told⟩ := told
  rw [read_command told] at accepted
  obtain ⟨⟨request, unrecognized⟩, requested, later⟩ := exists_of_bind_eq_ok accepted
  obtain ⟨_, checked, answered⟩ := exists_of_bind_eq_ok later
  have allRecognized : unrecognized = [] := by
    unfold checkRecognized at checked
    split at checked
    · next isEmpty => exact List.isEmpty_iff.mp isEmpty
    · cases checked
  subst allRecognized
  cases answered
  exact ⟨found, request, told, requested, rfl⟩

/-- **A delimiter can be added to every command line.** Whatever its text, the option is read, and
only the delimiter of the request changes. -/
theorem read_delimiter {command : Command} {path : Text} {invocation : Invocation}
    (accepted : read [typedName command, path] = .ok invocation) (raw : Text) :
    invocation = ⟨none, some ⟨command, path, none, none, false, false⟩⟩ ∧
      read [typedName command, path, Text.ofString "--delimiter=" ++ raw] =
        .ok ⟨none, some ⟨command, path, some (.typed raw), none, false, false⟩⟩ := by
  obtain ⟨found, request, told, requested, rfl⟩ := exists_of_read accepted
  obtain ⟨notSeparator, isArgument, same⟩ := classify_of_readRequest requested
  cases same
  refine ⟨rfl, ?_⟩
  obtain ⟨token, isOption⟩ := exists_classify_delimiter raw
  rw [tokens, if_neg notSeparator] at told
  obtain ⟨first, isFirst, -⟩ := exists_of_bind_eq_ok told
  have toldBoth : tokens topEffects [path, Text.ofString "--delimiter=" ++ raw] =
      .ok [first, token] := by
    simp only [tokens, if_neg notSeparator, if_neg (delimiter_ne_dashes raw), isFirst, isOption]
    rfl
  rw [read_command toldBoth, readRequest_delimiter notSeparator isArgument raw]
  rfl

end Options

/-! ## Jobs -/

namespace Job

/-- The same job with a delimiter as it is typed behind its option. -/
def withDelimiter (job : Job) (raw : Text) : Job :=
  { job with request := { job.request with delimiter := some (.typed raw) } }

theorem typed_withDelimiter (job : Job) {raw : Text} (isCodes : raw.IsCodes) :
    (job.withDelimiter raw).Typed := by
  refine typed_of_request fun typed isTyped => ?_
  simp only [withDelimiter, Options.Given.typed] at isTyped
  split at isTyped
  · cases isTyped
  · cases isTyped
    exact isCodes

/-- A command line that makes a job makes the same job with any delimiter. -/
theorem prepare_delimiter {settings : Except Fault Settings} {command : Command} {path : Text}
    {job : Job} (accepted : prepare settings [Options.typedName command, path] = .ok job)
    (raw : Text) :
    job.request = ⟨command, path, none, none, false, false⟩ ∧
      prepare settings
          [Options.typedName command, path, Text.ofString "--delimiter=" ++ raw] =
        .ok (job.withDelimiter raw) := by
  unfold prepare at accepted ⊢
  split at accepted
  · cases accepted
  · split at accepted
    · cases accepted
    · next invocation isRead =>
        obtain ⟨rfl, withOption⟩ := Options.read_delimiter isRead raw
        cases accepted
        rw [withOption]
        exact ⟨rfl, rfl⟩

end Job

end RecordScan
