import Mathlib.Data.List.Forall2
import RecordScan.Proofs.Command.Delimiter

/-!
Contract: what is read from the arguments was typed in them.

Owns: that telling arguments apart keeps them as they are typed, and that the text behind an
option is the end of its argument (`Options.tokens_standFor`); and that the delimiter of a
request is therefore the end of some argument (`Options.delimiter_typed`), so that it is made
of code points if the arguments are (`Job.typed_of_prepare`).

A text may hold any numbers. Where a unit has to be a code point, this is what the arguments
have to give.
-/

namespace RecordScan

namespace Options

/-! ## Tokens -/

/-- The texts in a token that may be the value of an option. -/
def Token.values : Token → List Text
  | .argument raw => [raw]
  | .option _ _ attached => attached.toList
  | .unknown _ | .separator => []

/-- A token of an argument, whose values are what the argument ends with. -/
def Token.StandsFor (token : Token) (argument : Text) : Prop :=
  token.raw = argument ∧ ∀ value ∈ token.values, value <:+ argument

theorem Token.standsFor_argument (raw : Text) : (argument raw).StandsFor raw := by
  refine ⟨rfl, fun value isValue => ?_⟩
  obtain rfl := List.mem_singleton.mp isValue
  exact List.suffix_rfl

theorem partition_suffix {raw value : Text} (attached : (partition raw).2 = some value) :
    value <:+ raw := by
  unfold partition at attached
  extract_lets name at attached
  split at attached
  · next isRest =>
      cases attached
      exact (List.suffix_cons _ value).trans (isRest ▸ List.drop_suffix _ raw)
  · cases attached

theorem candidates_suffix {effects : List Effect} {raw name value : Text} {effect : Effect}
    (member : (name, effect, some value) ∈ candidates effects raw) : value <:+ raw := by
  unfold candidates at member
  split at member
  · obtain ⟨spelling, -, isCandidate⟩ := List.mem_map.mp member
    exact partition_suffix (congrArg (·.2.2) isCandidate)
  · obtain ⟨spelling, -, isCandidate⟩ := List.mem_filterMap.mp member
    split at isCandidate
    · cases isCandidate
      exact List.drop_suffix 2 raw
    · split at isCandidate
      · cases isCandidate
      · cases isCandidate

theorem classify_standsFor {effects : List Effect} {raw : Text} {token : Token}
    (told : classify effects raw = .ok token) : token.StandsFor raw := by
  dsimp only [classify] at told
  split at told
  · split at told
    · cases told
      exact ⟨rfl, nofun⟩
    · split at told
      · cases told
        exact Token.standsFor_argument _
      · split at told
        · next value _ =>
            cases told
            exact ⟨rfl, fun value isValue => partition_suffix (Option.mem_toList.mp isValue)⟩
        · split at told
          · next isOnly =>
              cases told
              refine ⟨rfl, fun value isValue => ?_⟩
              obtain rfl := Option.mem_toList.mp isValue
              exact candidates_suffix (isOnly ▸ List.mem_singleton_self _)
          · split at told
            · cases told
              exact Token.standsFor_argument _
            · cases told
              exact ⟨rfl, nofun⟩
          · cases told
  · cases told
    exact Token.standsFor_argument _

/-- Tokens stand for the arguments, one for each, in order. -/
theorem tokens_standFor {effects : List Effect} {arguments : List Text} {found : List Token}
    (told : tokens effects arguments = .ok found) :
    List.Forall₂ Token.StandsFor found arguments := by
  induction arguments generalizing found with
  | nil =>
      cases told
      exact .nil
  | cons raw rest inductionHypothesis =>
      rw [tokens] at told
      split at told
      · next isSeparator =>
          cases told
          refine .cons ⟨isSeparator.symm, nofun⟩ ?_
          rw [List.forall₂_map_left_iff, List.forall₂_same]
          exact fun raw _ => Token.standsFor_argument raw
      · obtain ⟨token, first, later⟩ := exists_of_bind_eq_ok told
        obtain ⟨others, isRest, same⟩ := exists_of_bind_eq_ok later
        cases same
        exact .cons (classify_standsFor first) (inductionHypothesis isRest)

theorem tokens_raw {effects : List Effect} {arguments : List Text} {found : List Token}
    (told : tokens effects arguments = .ok found) : found.map Token.raw = arguments := by
  have same := (tokens_standFor told).imp fun _ _ stands => stands.1
  rwa [← List.forall₂_map_left_iff, List.forall₂_eq_eq_eq] at same

/-- The values that tokens hold are what arguments end with. -/
theorem tokens_values {effects : List Effect} {arguments : List Text} {found : List Token}
    (told : tokens effects arguments = .ok found) :
    ∀ token ∈ found, ∀ value ∈ token.values, ∃ argument ∈ arguments, value <:+ argument := by
  have stand := tokens_standFor told
  clear told
  induction stand with
  | nil => nofun
  | @cons token argument found arguments stands _ inductionHypothesis =>
      rw [List.forall_mem_cons]
      refine ⟨fun value isValue => ⟨argument, List.mem_cons_self .., stands.2 value isValue⟩, ?_⟩
      intro token isToken value isValue
      obtain ⟨argument, isArgument, isEnd⟩ := inductionHypothesis token isToken value isValue
      exact ⟨argument, List.mem_cons_of_mem _ isArgument, isEnd⟩

/-! ## The delimiter that is read -/

/-- The delimiter that was read, if any was, has a property. -/
def Arguments.DelimiterHas (property : Text → Prop) (arguments : Arguments) : Prop :=
  ∀ raw, arguments.delimiter = some (.value raw) → property raw

section DelimiterHas

variable {property : Text → Prop} {arguments next : Arguments} {effect : Effect}

theorem Given.eq_of_read {raw value : Text} (isRead : Given.read .ok raw = .ok (.value value)) :
    value = raw := by
  unfold Given.read at isRead
  split at isRead
  · cases isRead
  · cases isRead
    rfl

theorem Arguments.DelimiterHas.set {value : Text} (has : arguments.DelimiterHas property)
    (hasValue : property value) (applied : arguments.set effect value = .ok next) :
    next.DelimiterHas property := by
  cases effect with
  | delimiter =>
      obtain ⟨given, isRead, rfl⟩ := exists_of_map_eq_ok applied
      rintro raw ⟨⟩
      exact Given.eq_of_read isRead ▸ hasValue
  | logLevel | maxSegments =>
      obtain ⟨given, -, rfl⟩ := exists_of_map_eq_ok applied
      exact has
  | help | bytes | summary =>
      cases applied
      exact has

theorem Arguments.DelimiterHas.setAttached {raw attached : Text}
    (has : arguments.DelimiterHas property) (hasAttached : property attached)
    (applied : arguments.setAttached raw effect attached = .ok next) :
    next.DelimiterHas property := by
  unfold Arguments.setAttached at applied
  split at applied
  · exact has.set hasAttached applied
  · split at applied
    · cases applied
    · cases applied

theorem Arguments.DelimiterHas.turnOn (has : arguments.DelimiterHas property)
    (applied : arguments.turnOn effect = .ok next) : next.DelimiterHas property := by
  cases effect with
  | help => cases applied
  | bytes | summary | logLevel | delimiter | maxSegments =>
      cases applied
      exact has

/-- Values of options come from the tokens that are read, so that what all of them have in common
the delimiter has as well. -/
theorem Arguments.DelimiterHas.readCommand {tokens : List Token} {read : Arguments}
    (has : arguments.DelimiterHas property)
    (haveValues : ∀ token ∈ tokens, ∀ value ∈ token.values, property value)
    (answered : readCommand arguments tokens = .ok read) : read.DelimiterHas property := by
  fun_induction Options.readCommand arguments tokens with
  | case1 =>
      cases answered
      exact has
  | case2 _ _ _ _ _ inductionHypothesis | case5 _ _ _ _ inductionHypothesis
  | case7 _ _ _ _ inductionHypothesis | case8 _ _ _ inductionHypothesis
  | case4 _ _ _ _ _ inductionHypothesis =>
      exact inductionHypothesis has (List.forall_mem_cons.mp haveValues).2 answered
  | case3 _ _ _ _ inductionHypothesis | case6 _ _ _ _ inductionHypothesis =>
      have later := (List.forall_mem_cons.mp (List.forall_mem_cons.mp haveValues).2).2
      exact inductionHypothesis has later answered
  | case9 _ raw effect attached rest inductionHypothesis =>
      obtain ⟨hasOwn, haveLater⟩ := List.forall_mem_cons.mp haveValues
      obtain ⟨next, applied, answered⟩ := exists_of_bind_eq_ok answered
      have hasNext := has.setAttached (hasOwn attached (List.mem_singleton_self _)) applied
      exact inductionHypothesis next hasNext haveLater answered
  | case10 _ raw effect takesValue value rest inductionHypothesis =>
      obtain ⟨-, haveLater⟩ := List.forall_mem_cons.mp haveValues
      obtain ⟨hasValue, haveRest⟩ := List.forall_mem_cons.mp haveLater
      obtain ⟨next, applied, answered⟩ := exists_of_bind_eq_ok answered
      have hasNext := has.set (hasValue value (List.mem_singleton_self _)) applied
      exact inductionHypothesis next hasNext haveRest answered
  | case11 => cases answered
  | case12 _ raw effect rest takesNone inductionHypothesis =>
      obtain ⟨next, applied, answered⟩ := exists_of_bind_eq_ok answered
      exact inductionHypothesis next (has.turnOn applied) (List.forall_mem_cons.mp haveValues).2
        answered

end DelimiterHas

/-- What is left for a command stands at the end of the arguments. -/
theorem rest_of_readTop {start top : Arguments} {found : List Token} {name : Text}
    {rest : List Text} (answered : readTop start found = .ok (top, some (name, rest))) :
    rest <:+ found.map Token.raw := by
  fun_induction readTop start found with
  | case1 => cases answered
  | case2 _ raw later =>
      cases answered
      exact List.suffix_cons _ _
  | case3 => cases answered
  | case4 _ later =>
      cases answered
      exact List.suffix_cons _ _
  | case5 _ raw later inductionHypothesis =>
      exact (inductionHypothesis answered).trans (List.suffix_cons _ _)
  | case6 _ raw effect attached later inductionHypothesis =>
      obtain ⟨next, -, answered⟩ := exists_of_bind_eq_ok answered
      exact (inductionHypothesis next answered).trans (List.suffix_cons _ _)
  | case7 _ raw effect takesValue value later inductionHypothesis =>
      obtain ⟨next, -, answered⟩ := exists_of_bind_eq_ok answered
      have behind := (inductionHypothesis next answered).trans (List.suffix_cons value _)
      exact behind.trans (List.suffix_cons raw _)
  | case8 => cases answered
  | case9 _ raw effect later takesNone inductionHypothesis =>
      obtain ⟨next, -, answered⟩ := exists_of_bind_eq_ok answered
      exact (inductionHypothesis next answered).trans (List.suffix_cons _ _)

/-! ## Requests -/

/-- The request of a command with what was read for it. -/
def Arguments.request (read : Arguments) (command : Command) (input : Text) : Request :=
  ⟨command, input, read.delimiter, read.maxSegments, read.bytes, read.summary⟩

theorem exists_of_readRequest {command : Command} {arguments : List Text}
    {answer : Request × List Text} (requested : readRequest command arguments = .ok answer) :
    ∃ found read input, tokens (commandEffects command) arguments = .ok found ∧
      readCommand .empty found = .ok read ∧ read.input = some input ∧
      answer = (read.request command input, read.unrecognized) := by
  obtain ⟨found, told, later⟩ := exists_of_bind_eq_ok requested
  obtain ⟨read, answered, ended⟩ := exists_of_bind_eq_ok later
  refine ⟨found, read, ?_⟩
  split at ended
  · cases ended
  · next input isInput =>
      cases ended
      exact ⟨input, ok_of_mapError told, ok_of_mapError answered, isInput, rfl⟩

/-- **A delimiter is what some argument ends with.** -/
theorem delimiter_typed {arguments : List Text} {invocation : Invocation} {request : Request}
    {raw : Text} (accepted : read arguments = .ok invocation)
    (isRequest : invocation.request = some request)
    (isDelimiter : request.delimiter = some (.value raw)) :
    ∃ argument ∈ arguments, raw <:+ argument := by
  obtain ⟨found, told, later⟩ := exists_of_bind_eq_ok accepted
  obtain ⟨⟨top, command?⟩, answered, ended⟩ := exists_of_bind_eq_ok later
  cases command? with
  | none =>
      obtain ⟨_, -, same⟩ := exists_of_bind_eq_ok ended
      cases same
      cases isRequest
  | some named =>
      obtain ⟨name, rest⟩ := named
      dsimp only at ended
      split at ended
      · cases ended
      · next command _ =>
          obtain ⟨answer, requested, checked⟩ := exists_of_bind_eq_ok ended
          obtain ⟨_, -, same⟩ := exists_of_bind_eq_ok checked
          cases same
          cases isRequest
          obtain ⟨tokens, read, input, toldRest, answeredRest, -, rfl⟩ :=
            exists_of_readRequest requested
          have isEmpty : Arguments.empty.DelimiterHas fun raw =>
            ∃ argument ∈ rest, raw <:+ argument := nofun
          obtain ⟨argument, isArgument, isEnd⟩ :=
            isEmpty.readCommand (tokens_values toldRest) answeredRest raw isDelimiter
          have isRest := rest_of_readTop (ok_of_mapError answered)
          rw [tokens_raw (ok_of_mapError told)] at isRest
          exact ⟨argument, isRest.mem isArgument, isEnd⟩

end Options

/-! ## Jobs -/

/-- The delimiter of a job is made of code points if the arguments are. -/
theorem Job.typed_of_prepare {settings : Except Fault Settings} {arguments : List Text} {job : Job}
    (areCodes : ∀ argument ∈ arguments, argument.IsCodes)
    (prepared : prepare settings arguments = .ok job) : job.Typed := by
  unfold prepare at prepared
  split at prepared
  · cases prepared
  · split at prepared
    · cases prepared
    · next accepted =>
        split at prepared
        · cases prepared
        · next isRequest =>
            cases prepared
            refine typed_of_request fun raw isDelimiter => ?_
            obtain ⟨argument, isArgument, isEnd⟩ :=
              Options.delimiter_typed accepted isRequest isDelimiter
            exact (areCodes argument isArgument).of_suffix isEnd

end RecordScan
