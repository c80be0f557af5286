import PipelineWaves.Proofs.Attempt
import PipelineWaves.Proofs.Layering
import PipelineWaves.Proofs.Program.Literal
import PipelineWaves.Recipe.Perform

/-!
# Arguments of handlers

Custom parameters travel to the program of a handler as arguments `--key=value`. Read back
one by one, behind the hyphens and split at the first equals sign, they are the parameters
again, because no accepted key is empty or holds an equals sign. The split itself is known
by what it puts together.
-/

set_option autoImplicit false

namespace PipelineWaves

theorem split_key_value_at (front rest : List Char) (noSign : '=' ∉ front) :
    splitKeyValue (String.ofList (front ++ '=' :: rest)) =
      if front.isEmpty then none else some (String.ofList front, String.ofList rest) := by
  have passes : ∀ character ∈ front, decide (character ≠ '=') = true := by
    intro character member
    apply decide_eq_true
    rintro rfl
    exact noSign member
  have key : (front ++ '=' :: rest).takeWhile (fun character => character ≠ '=') = front := by
    apply ProgramText.take_while_append passes
    rintro item ⟨⟩
    rfl
  unfold splitKeyValue
  simp only [String.toList_ofList, key, List.drop_left]

theorem split_key_value_without (text : String) (noSign : '=' ∉ text.toList) :
    splitKeyValue text = none := by
  have key : text.toList.takeWhile (fun character => character ≠ '=') = text.toList := by
    rw [List.takeWhile_eq_self_iff]
    intro character member
    apply decide_eq_true
    rintro rfl
    exact noSign member
  unfold splitKeyValue
  simp only [key, List.drop_length]

theorem split_at_sign {text : String} (sign : '=' ∈ text.toList) :
    ∃ front rest, text = String.ofList (front ++ '=' :: rest) ∧ '=' ∉ front := by
  obtain ⟨front, rest, split, noSign⟩ := List.eq_append_cons_of_mem sign
  exact ⟨front, rest, by rw [← split, String.ofList_toList], noSign⟩

/-- Key and value are the only two texts that an equals sign joins again, when the key holds
no such sign itself. -/
theorem split_key_value_eq_some_iff {text key value : String} :
    splitKeyValue text = some (key, value) ↔
      key ≠ "" ∧ '=' ∉ key.toList ∧ key ++ "=" ++ value = text := by
  constructor
  · intro splits
    have sign : '=' ∈ text.toList := by
      by_contra noSign
      rw [split_key_value_without text noSign] at splits
      cases splits
    obtain ⟨front, rest, rfl, noSign⟩ := split_at_sign sign
    rw [split_key_value_at front rest noSign] at splits
    split at splits
    · cases splits
    · rename_i someKey
      cases splits
      refine ⟨?_, ?_, ?_⟩
      · simpa using someKey
      · rwa [String.toList_ofList]
      · apply String.toList_inj.1
        simp
  · rintro ⟨someKey, noSign, rfl⟩
    have split : key ++ "=" ++ value = String.ofList (key.toList ++ '=' :: value.toList) := by
      apply String.toList_inj.1
      simp
    rw [split, split_key_value_at key.toList value.toList noSign, String.ofList_toList,
      String.ofList_toList, if_neg]
    simpa using someKey

theorem split_key_value_is_some_iff {text : String} :
    (splitKeyValue text).isSome ↔ '=' ∈ text.toList ∧ text.toList.head? ≠ some '=' := by
  by_cases sign : '=' ∈ text.toList
  · obtain ⟨front, rest, rfl, noSign⟩ := split_at_sign sign
    rw [split_key_value_at front rest noSign]
    cases front with
    | nil => simp
    | cons first front =>
        have other : first ≠ '=' := fun same => noSign (same ▸ List.mem_cons_self)
        simp [other]
  · rw [split_key_value_without text sign]
    simp [sign]

/-- What an argument of a handler says: the pair behind its two hyphens. -/
def readHandlerArgument (argument : String) : Option (String × String) :=
  match argument.toList with
  | '-' :: '-' :: pair => splitKeyValue (String.ofList pair)
  | _ => none

def readHandlerArguments (arguments : List String) : Option (Dictionary String) :=
  (arguments.mapM readHandlerArgument).map Dictionary.ofList

/-- Some action can be made ready that carries these parameters. -/
def AcceptedParameters (parameters : Dictionary String) : Prop :=
  ∃ settings home typeName ready,
    (Action.custom typeName parameters).ready settings home = .ok ready

theorem parameter_name_fault_none_iff {name : String} :
    parameterNameFault? name = none ↔ name ≠ "" ∧ '=' ∉ name.toList := by
  simp [parameterNameFault?]

theorem accepted_parameters_iff {parameters : Dictionary String} :
    AcceptedParameters parameters ↔
      ∀ key ∈ parameters.keys, key ≠ "" ∧ '=' ∉ key.toList := by
  constructor
  · rintro ⟨settings, home, typeName, ready, accepted⟩ key member
    obtain ⟨_, _, checked⟩ := except_bind_ok accepted
    split at checked
    · cases checked
    · rename_i faultless
      exact parameter_name_fault_none_iff.1 (List.findSome?_eq_none_iff.1 faultless key member)
  · intro sound
    have faultless : parameters.keys.findSome? parameterNameFault? = none := by
      rw [List.findSome?_eq_none_iff]
      intro key member
      exact parameter_name_fault_none_iff.2 (sound key member)
    have required : requireParameter "type_name" "handler" = .ok () := by decide
    refine ⟨.standard, "", "handler", .custom "handler" parameters, ?_⟩
    rw [Action.ready, required, except_ok_bind, faultless]

theorem read_handler_argument {key value : String} (someKey : key ≠ "")
    (noSign : '=' ∉ key.toList) :
    readHandlerArgument ("--" ++ key ++ "=" ++ value) = some (key, value) := by
  have characters : ("--" ++ key ++ "=" ++ value).toList =
      '-' :: '-' :: (key ++ "=" ++ value).toList := by
    simp
  unfold readHandlerArgument
  rw [characters]
  simp only [String.ofList_toList]
  exact split_key_value_eq_some_iff.2 ⟨someKey, noSign, rfl⟩

/-- One argument for each parameter, in the order of the keys, from which it is read back. -/
structure CarriesParameters (arguments : List String) (parameters : Dictionary String) : Prop where
  one_each : arguments.length = parameters.size
  hyphens : ∀ argument ∈ arguments, ∃ pair, argument = "--" ++ pair
  ascending : arguments.Pairwise fun earlier later => ∃ first second,
    readHandlerArgument earlier = some first ∧ readHandlerArgument later = some second ∧
      first.1 < second.1
  read_each : arguments.mapM readHandlerArgument = some parameters.entries
  read_back : readHandlerArguments arguments = some parameters

theorem read_handler_argument_of_mem {parameters : Dictionary String}
    (accepted : AcceptedParameters parameters) {entry : String × String}
    (member : entry ∈ parameters.entries) :
    readHandlerArgument ("--" ++ entry.1 ++ "=" ++ entry.2) = some entry := by
  obtain ⟨someKey, noSign⟩ :=
    accepted_parameters_iff.1 accepted entry.1 (List.mem_map_of_mem member)
  exact read_handler_argument someKey noSign

theorem read_each_of_reads {Item Written : Type} {read : Written → Option Item}
    {write : Item → Written} {items : List Item}
    (reads : ∀ item ∈ items, read (write item) = some item) :
    (items.map write).mapM read = some items := by
  induction items with
  | nil => rfl
  | cons item rest induction =>
      have later := induction fun other member => reads other (List.mem_cons_of_mem _ member)
      rw [List.map_cons, List.mapM_cons, reads item List.mem_cons_self, later]
      rfl

theorem handler_arguments_carry {parameters : Dictionary String}
    (accepted : AcceptedParameters parameters) :
    CarriesParameters (handlerArguments parameters) parameters := by
  have readEach : (handlerArguments parameters).mapM readHandlerArgument =
      some parameters.entries := by
    apply read_each_of_reads
    intro entry member
    exact read_handler_argument_of_mem accepted member
  constructor
  · rw [handlerArguments, List.length_map]
    rfl
  · intro argument member
    obtain ⟨entry, _, rfl⟩ := List.mem_map.1 member
    refine ⟨entry.1 ++ "=" ++ entry.2, ?_⟩
    rw [String.append_assoc, String.append_assoc, String.append_assoc]
  · rw [handlerArguments, List.pairwise_map]
    apply parameters.ascending.imp_of_mem
    intro first second firstMember secondMember below
    exact ⟨first, second, read_handler_argument_of_mem accepted firstMember,
      read_handler_argument_of_mem accepted secondMember, below⟩
  · exact readEach
  · rw [readHandlerArguments, readEach, Option.map_some, Dictionary.ofList_entries]

/-- The arguments of a handler carry every accepted parameter and tell accepted parameters
apart; a pair splits exactly when an equals sign stands behind its first character, and the
parts are those of the text around its first equals sign. -/
theorem handler_arguments_keep_parameters :
    (∀ parameters, AcceptedParameters parameters →
      CarriesParameters (handlerArguments parameters) parameters) ∧
    (∀ left right, AcceptedParameters left → AcceptedParameters right →
      handlerArguments left = handlerArguments right → left = right) ∧
    ∀ text, ((splitKeyValue text).isSome ↔ '=' ∈ text.toList ∧ text.toList.head? ≠ some '=') ∧
      ∀ key value, splitKeyValue text = some (key, value) →
        '=' ∉ key.toList ∧ key ++ "=" ++ value = text := by
  refine ⟨fun parameters accepted => handler_arguments_carry accepted, ?_, ?_⟩
  · intro left right leftAccepted rightAccepted same
    have leftRead := (handler_arguments_carry leftAccepted).read_back
    have rightRead := (handler_arguments_carry rightAccepted).read_back
    rw [same, rightRead] at leftRead
    exact (Option.some.inj leftRead).symm
  · intro text
    refine ⟨split_key_value_is_some_iff, ?_⟩
    intro key value splits
    exact (split_key_value_eq_some_iff.1 splits).2

def awkwardParameters : Dictionary String :=
  Dictionary.ofList
    [("zone", "eu=west=1"), ("--", "--zone=eu"), ("app", ""), ("note", "two\nlines")]

theorem awkward_parameters_kept :
    AcceptedParameters awkwardParameters ∧
      CarriesParameters ["----=--zone=eu", "--app=", "--note=two\nlines", "--zone=eu=west=1"]
        awkwardParameters := by
  have accepted : AcceptedParameters awkwardParameters :=
    accepted_parameters_iff.2 (by decide)
  have arguments : handlerArguments awkwardParameters =
      ["----=--zone=eu", "--app=", "--note=two\nlines", "--zone=eu=west=1"] := by decide
  exact ⟨accepted, arguments ▸ handler_arguments_keep_parameters.1 awkwardParameters accepted⟩

end PipelineWaves
