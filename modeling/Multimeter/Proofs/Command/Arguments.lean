import Mathlib.Data.List.TakeWhile
import Multimeter.Command.Arguments

/-!
# Every decoding can be asked for

* `Switch.flag`, `Switch.assign`: an option as one argument, without and with a value.
* `DecodeOptions.arguments`: arguments that ask for given options.
* `readItems_flags`, `readItems_assign`: how such arguments are read.
* **`DecodeOptions.ofArguments?_arguments`**: they make the request for these options.
-/

namespace Multimeter.Command

/-! ## One option -/

namespace Switch

def flag (switch : Switch) : String := "--" ++ switch.longName

def assign (switch : Switch) (value : String) : String := switch.flag ++ "=" ++ value

theorem find?_longName (switch : Switch) :
    all.find? (·.longName.toList == switch.longName.toList) = some switch := by
  cases switch <;> decide

theorem ne_of_mem_longName (switch : Switch) :
    ∀ c ∈ switch.longName.toList, decide (c ≠ '=') = true := by
  have hall : switch.longName.toList.all (· ≠ '=') = true := by cases switch <;> decide
  exact List.all_eq_true.mp hall

theorem longName_ne_nil (switch : Switch) : switch.longName.toList ≠ [] := by
  cases switch <;> decide

theorem toList_flag (switch : Switch) :
    switch.flag.toList = '-' :: '-' :: switch.longName.toList := by
  rw [flag, String.toList_append]
  rfl

theorem toList_assign (switch : Switch) (value : String) : (switch.assign value).toList =
    '-' :: '-' :: (switch.longName.toList ++ '=' :: value.toList) := by
  rw [assign, String.toList_append, String.toList_append, toList_flag]
  simp

end Switch

variable {switch : Switch}

theorem readName_longName (h : switch.takesValue = false) :
    readName switch.longName.toList = some ([.option switch none], none) := by
  have hname := switch.ne_of_mem_longName
  have htake : switch.longName.toList.takeWhile (· ≠ '=') = switch.longName.toList :=
    List.takeWhile_eq_self_iff.mpr hname
  have hdrop : switch.longName.toList.dropWhile (· ≠ '=') = [] :=
    List.dropWhile_eq_nil_iff.mpr hname
  simp only [readName, htake, hdrop, switch.find?_longName]
  simp [h]

theorem readName_assign (h : switch.takesValue = true) (value : String) :
    readName (switch.longName.toList ++ '=' :: value.toList) =
      some ([.option switch (some value)], none) := by
  have hname := switch.ne_of_mem_longName
  have htake : (switch.longName.toList ++ '=' :: value.toList).takeWhile (· ≠ '=') =
      switch.longName.toList := by
    rw [List.takeWhile_append_of_pos hname]
    simp
  have hdrop : (switch.longName.toList ++ '=' :: value.toList).dropWhile (· ≠ '=') =
      '=' :: value.toList := by
    rw [List.dropWhile_append_of_pos hname]
    simp
  simp only [readName, htake, hdrop, switch.find?_longName]
  simp [h]

theorem readItems_name {argument : String} {name : List Char} {item : Item}
    (htext : argument.toList = '-' :: '-' :: name) (hname : name ≠ [])
    (hread : readName name = some ([item], none)) (rest : List String) :
    readItems (argument :: rest) = (readItems rest).map (item :: ·) := by
  have hdashes : argument ≠ "--" := by
    rintro rfl
    exact hname (List.cons.inj (List.cons.inj htext).2).2.symm
  have hoption : isOption argument = true := by simp [isOption, htext]
  have hargument : readOption argument = some ([item], none) := by simp [readOption, htext, hread]
  rw [readItems, if_neg hdashes, if_pos hoption, hargument]
  rfl

theorem readItems_assign (h : switch.takesValue = true) (value : String) (rest : List String) :
    readItems (switch.assign value :: rest) =
      (readItems rest).map (.option switch (some value) :: ·) :=
  readItems_name (switch.toList_assign value) (by simp) (readName_assign h value) rest

/-- **Options without values** are read one by one. -/
theorem readItems_flags {switches : List Switch} (h : ∀ s ∈ switches, s.takesValue = false)
    (rest : List String) :
    readItems (switches.map Switch.flag ++ rest) =
      (readItems rest).map (switches.map (.option · none) ++ ·) := by
  induction switches with
  | nil => simp
  | cons switch switches ih =>
    obtain ⟨hswitch, hswitches⟩ := List.forall_mem_cons.mp h
    rw [List.map_cons, List.cons_append, readItems_name switch.toList_flag switch.longName_ne_nil
      (readName_longName hswitch), ih hswitches, Option.map_map]
    rfl

/-! ## Counting -/

section

variable (s : Switch) (value : Option String) (text : String) (l l' : List Item)

@[simp] theorem countOf_nil : countOf [] switch = 0 := rfl

@[simp] theorem countOf_option_cons :
    countOf (.option s value :: l) switch = countOf l switch + if s = switch then 1 else 0 := by
  simp [countOf, List.countP_cons]

@[simp] theorem countOf_operand_cons :
    countOf (.operand text :: l) switch = countOf l switch :=
  List.countP_cons_of_neg Bool.false_ne_true

@[simp] theorem countOf_append :
    countOf (l ++ l') switch = countOf l switch + countOf l' switch :=
  List.countP_append

@[simp] theorem valuesOf_nil : valuesOf [] switch = [] := rfl

@[simp] theorem valuesOf_option_cons :
    valuesOf (.option s value :: l) switch =
      (if s = switch then value.toList else []) ++ valuesOf l switch := by
  rw [valuesOf, List.filterMap_cons]
  by_cases hs : s = switch
  · cases value <;> simp [hs, valuesOf]
  · simp [hs, valuesOf]

@[simp] theorem valuesOf_operand_cons :
    valuesOf (.operand text :: l) switch = valuesOf l switch := rfl

@[simp] theorem valuesOf_append :
    valuesOf (l ++ l') switch = valuesOf l switch ++ valuesOf l' switch :=
  List.filterMap_append

theorem valuesOf_map_option (switches : List Switch) :
    valuesOf (switches.map (.option · none)) switch = [] := by
  induction switches with
  | nil => rfl
  | cons s switches ih => simp [ih]

theorem operandsOf_option_cons : operandsOf (.option s value :: l) = operandsOf l := rfl

theorem operandsOf_append : operandsOf (l ++ l') = operandsOf l ++ operandsOf l' :=
  List.filterMap_append

theorem operandsOf_map_option {α : Type} (f : α → Item) (as : List α)
    (h : ∀ a ∈ as, ∃ s value, f a = .option s value) : operandsOf (as.map f) = [] := by
  rw [operandsOf, List.filterMap_map]
  refine List.filterMap_eq_nil_iff.mpr fun a ha => ?_
  obtain ⟨s, value, hf⟩ := h a ha
  rw [Function.comp_apply, hf]

end

/-! ## All options -/

/-- The path of the report, if it goes to a file. -/
def Destination.text? : Destination → Option String
  | .standardOutput => none
  | .file path => some path.text

namespace DecodeOptions

variable (options : DecodeOptions) (compact : Bool)

/-- Whether the options are asked for with a switch. The compact form need not be asked for. -/
def asksFor : Switch → Bool
  | .verbose => false
  | .protocol => true
  | .report => options.destination.text?.isSome
  | .stdout => options.destination.text?.isNone
  | .pretty => options.pretty
  | .compact => compact
  | .quiet => options.quiet
  | .strict => options.strict
  | .listRejections => options.listRejections
  | .maskParity => options.maskParity

/-- The switches without values. -/
def flags : List Switch :=
  Switch.all.filter fun switch => !switch.takesValue && options.asksFor compact switch

/-- Arguments that ask for the options. -/
def arguments : List String :=
  "capture" :: "decode" :: Switch.protocol.assign options.variant.name ::
    (options.destination.text?.toList.map Switch.report.assign ++
      ((options.flags compact).map Switch.flag ++ ["--", options.input.text]))

/-- What the arguments hold. -/
def items : List Item :=
  .option .protocol (some options.variant.name) ::
    (options.destination.text?.toList.map (fun path => .option .report (some path)) ++
      ((options.flags compact).map (.option · none) ++ [.operand options.input.text]))

theorem readItems_arguments :
    readItems ((options.arguments compact).drop 2) = some (options.items compact) := by
  have hflags : ∀ s ∈ options.flags compact, s.takesValue = false := by
    intro s hs
    have hasked := (List.mem_filter.mp hs).2
    simp only [Bool.and_eq_true, Bool.not_eq_true'] at hasked
    exact hasked.1
  have hrest : readItems ((options.flags compact).map Switch.flag ++ ["--", options.input.text]) =
      some ((options.flags compact).map (.option · none) ++ [.operand options.input.text]) := by
    rw [readItems_flags hflags, readItems, if_pos rfl]
    rfl
  rw [arguments, items, List.drop_succ_cons, List.drop_succ_cons, List.drop_zero,
    readItems_assign rfl]
  cases options.destination.text? with
  | none =>
    rw [Option.toList_none, List.map_nil, List.nil_append, hrest]
    rfl
  | some path =>
    rw [Option.toList_some, List.map_singleton, List.singleton_append, readItems_assign rfl, hrest]
    rfl

theorem countOf_flags : countOf ((options.flags compact).map (.option · none)) switch =
    (!switch.takesValue && options.asksFor compact switch).toNat := by
  have hone (b : Bool) : (if b then 1 else 0) = b.toNat := by cases b <;> rfl
  rw [countOf, List.countP_map, flags, List.countP_filter]
  cases switch <;> simp [Switch.all, List.countP_cons, Switch.takesValue, hone]

theorem countOf_items : countOf (options.items compact) switch =
    (options.asksFor compact switch).toNat := by
  simp only [items, countOf_option_cons, countOf_append, countOf_flags, countOf_operand_cons,
    countOf_nil]
  cases hpath : options.destination.text? <;> cases switch <;>
    simp [asksFor, hpath, Switch.takesValue]

theorem valuesOf_items : valuesOf (options.items compact) switch =
    (if .protocol = switch then [options.variant.name] else []) ++
      if .report = switch then options.destination.text?.toList else [] := by
  simp only [items, valuesOf_option_cons, valuesOf_append, valuesOf_map_option,
    valuesOf_operand_cons, valuesOf_nil]
  cases options.destination.text? <;> simp

theorem operandsOf_items : operandsOf (options.items compact) = [options.input.text] := by
  rw [items, operandsOf_option_cons, operandsOf_append, operandsOf_append,
    operandsOf_map_option _ _ fun _ _ => ⟨_, _, rfl⟩,
    operandsOf_map_option _ _ fun _ _ => ⟨_, _, rfl⟩]
  rfl

theorem destinationOf?_items (hpath : ∀ path, options.destination = .file path → path.text ≠ "") :
    destinationOf? (options.items compact) = some options.destination := by
  rw [destinationOf?, valuesOf_items, countOf_items]
  cases hdestination : options.destination with
  | standardOutput => simp [asksFor, hdestination, Destination.text?]
  | file path => simp [asksFor, hdestination, Destination.text?, hpath path hdestination]

theorem ofItems?_items (hinput : options.input.text ≠ "")
    (hpath : ∀ path, options.destination = .file path → path.text ≠ "")
    (hcompact : options.pretty → compact = false) :
    ofItems? (options.items compact) = some options := by
  have hgiven (switch : Switch) : decide (0 < countOf (options.items compact) switch) =
      options.asksFor compact switch := by
    rw [countOf_items]
    cases options.asksFor compact switch <;> rfl
  have honce : (Switch.all.any fun switch =>
      switch ≠ .verbose && 1 < countOf (options.items compact) switch) = false := by
    refine List.any_eq_false.mpr fun switch _ => ?_
    have hone := Bool.toNat_le (options.asksFor compact switch)
    rw [countOf_items, Bool.and_eq_true, decide_eq_true_eq]
    exact fun h => Nat.not_lt.mpr hone (of_decide_eq_true h.2)
  have hvariant : (Variant.ofName options.variant.name).toOption = some options.variant := by
    cases options.variant <;> decide +kernel
  have hform : (options.pretty && compact) = false := by
    cases hpretty : options.pretty with
    | false => rfl
    | true => exact hcompact hpretty
  simp only [ofItems?, hgiven, honce, options.operandsOf_items, options.valuesOf_items,
    options.destinationOf?_items compact hpath]
  simp [asksFor, hform, hinput, hvariant]

/-- **Every decoding can be asked for**: there are arguments for all options, with and without
asking for the compact form where this can be done. -/
theorem ofArguments?_arguments (hinput : options.input.text ≠ "")
    (hpath : ∀ path, options.destination = .file path → path.text ≠ "")
    (hcompact : options.pretty → compact = false) :
    Request.ofArguments? (options.arguments compact) = some (.decode options) := by
  have hitems := options.readItems_arguments compact
  rw [arguments, List.drop_succ_cons, List.drop_succ_cons, List.drop_zero] at hitems
  have hcapture : isOption "capture" = false := by decide
  have hdecode : isOption "decode" = false := by decide
  have hname : decodeNames.contains "decode" = true := by decide
  have hverbose (argument : String) (rest : List String) (h : isOption argument = false) :
      skipVerbose (argument :: rest) = some (argument :: rest) := by
    rw [skipVerbose, h]
    rfl
  simp only [Request.ofArguments?, arguments, hverbose _ _ hcapture, hverbose _ _ hdecode,
    Option.bind_eq_bind, Option.bind_some, hname, if_true, hitems,
    options.ofItems?_items compact hinput hpath hcompact]
  rfl

/-- Names may begin with a dash. -/
example :
    let options : DecodeOptions :=
      { input := ⟨"-a.bin"⟩, variant := .bm25x, destination := .file ⟨"-r.json"⟩, quiet := true }
    options.arguments false =
      ["capture", "decode", "--protocol=bm25x", "--report=-r.json", "--quiet", "--", "-a.bin"] := by
  decide

end DecodeOptions

end Multimeter.Command
