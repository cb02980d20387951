-- SUMMARY: What arguments say: every switch that is read belongs to the command, and every value stands in an argument.
import AlignmentConfig.Command.Options
import AlignmentConfig.Proofs.Splitting

/-!
# What arguments say

Reading arguments invents nothing. A switch that is read is one of those that
the command has, its value is an argument or the end of one, and the positional
arguments are among the arguments.
-/

namespace AlignmentConfig.Options

open Text

variable {α : Type} {switches : List (Switch α)}

/-! ## One argument -/

/-- What an argument may be recognized as: a flag, or an option with a value that ends the argument
    or is still to come. -/
inductive Recognizes (switches : List (Switch α)) (arg : List Char) : Recognized α → Prop where
  | flag {long : String} {meaning : α} (h : .flag long meaning ∈ switches) :
      Recognizes switches arg (.complete meaning)
  | valued {long : Option String} {short : Char} {meaning : String → α} {value : String}
      (h : .valued long short meaning ∈ switches) (hvalue : value.toList <:+ arg) :
      Recognizes switches arg (.complete (meaning value))
  | awaits {long : Option String} {short : Char} {meaning : String → α}
      (h : .valued long short meaning ∈ switches) : Recognizes switches arg (.awaits meaning)

theorem Recognizes.of_suffix {cs arg : List Char} {recognized : Recognized α}
    (h : Recognizes switches cs recognized) (hsuffix : cs <:+ arg) :
    Recognizes switches arg recognized := by
  cases h with
  | flag h => exact .flag h
  | valued h hvalue => exact .valued h (hvalue.trans hsuffix)
  | awaits h => exact .awaits h

theorem mem_of_findLong {name : String} {switch : Switch α}
    (h : findLong switches name = some switch) : switch ∈ switches :=
  List.mem_of_find?_eq_some h

theorem mem_of_findShort {c : Char} {meaning : String → α}
    (h : findShort switches c = some meaning) :
    ∃ long, .valued long c meaning ∈ switches := by
  obtain ⟨switch, hmem, hswitch⟩ := List.exists_of_findSome?_eq_some h
  cases switch with
  | flag long meaning => cases hswitch
  | valued long short meaning =>
    simp only [Option.ite_none_right_eq_some, Option.some.injEq] at hswitch
    obtain ⟨rfl, rfl⟩ := hswitch
    exact ⟨long, hmem⟩

theorem recognizes_of_recognizeLong {text : String} {recognized : Recognized α}
    (h : recognizeLong switches text = some recognized) :
    Recognizes switches text.toList recognized := by
  simp only [recognizeLong] at h
  split at h
  · next hfind _ => exact Option.some.inj h ▸ .flag (mem_of_findLong hfind)
  · cases h
  · next hfind hcut =>
    exact Option.some.inj h ▸ .valued (mem_of_findLong hfind) (suffix_of_cut hcut)
  · next hfind _ => exact Option.some.inj h ▸ .awaits (mem_of_findLong hfind)
  · cases h

theorem recognizes_of_recognizeShort {cs : List Char} {recognized : Recognized α}
    (h : recognizeShort switches cs = some recognized) : Recognizes switches cs recognized := by
  cases cs with
  | nil => cases h
  | cons c rest =>
    obtain ⟨meaning, hfind, rfl⟩ := Option.map_eq_some_iff.1 h
    obtain ⟨long, hmem⟩ := mem_of_findShort hfind
    split
    · exact .awaits hmem
    · exact .valued hmem (by simp)

theorem recognizes_of_shape {arg : String} {recognized : Recognized α}
    (h : shape switches arg = .option (some recognized)) :
    Recognizes switches arg.toList recognized := by
  unfold shape at h
  split at h
  · cases h
  · next cs _ hcs =>
    have hlong := recognizes_of_recognizeLong (Shape.option.inj h)
    exact hlong.of_suffix ⟨['-', '-'], by simp [hcs]⟩
  · next c cs _ hcs =>
    have hshort := recognizes_of_recognizeShort (Shape.option.inj h)
    exact hshort.of_suffix (by simp [hcs])
  · cases h

/-! ## All arguments -/

/-- What a command can be told by arguments: one of its flags, or one of its options with a value
    that ends an argument. -/
inductive Stated (switches : List (Switch α)) (args : List String) : α → Prop where
  | flag {long : String} {meaning : α} (h : .flag long meaning ∈ switches) :
      Stated switches args meaning
  | valued {long : Option String} {short : Char} {meaning : String → α} {arg value : String}
      (h : .valued long short meaning ∈ switches) (harg : arg ∈ args)
      (hvalue : value.toList <:+ arg.toList) : Stated switches args (meaning value)

theorem Stated.of_subset {args args' : List String} {meaning : α} (h : Stated switches args meaning)
    (hsubset : args ⊆ args') : Stated switches args' meaning := by
  cases h with
  | flag h => exact .flag h
  | valued h harg hvalue => exact .valued h (hsubset harg) hvalue

theorem Stated.of_recognizes {arg : String} {args : List String} {meaning : α}
    (h : Recognizes switches arg.toList (.complete meaning)) : Stated switches (arg :: args) meaning := by
  cases h with
  | flag h => exact .flag h
  | valued h hvalue => exact .valued h (List.mem_cons_self ..) hvalue

/-- Nothing is in a reading but what the arguments say. -/
structure Reading.StatedBy (switches : List (Switch α)) (args : List String) (reading : Reading α) :
    Prop where
  given : ∀ meaning ∈ reading.given, Stated switches args meaning
  positional : reading.positional ⊆ args

namespace Reading.StatedBy

variable {args args' : List String} {reading : Reading α}

theorem of_subset (h : reading.StatedBy switches args) (hsubset : args ⊆ args') :
    reading.StatedBy switches args' :=
  ⟨fun meaning hmem => (h.given meaning hmem).of_subset hsubset, List.Subset.trans h.positional hsubset⟩

theorem withSwitch (h : reading.StatedBy switches args) {meaning : α}
    (hstated : Stated switches args meaning) : (reading.withSwitch meaning).StatedBy switches args :=
  ⟨List.forall_mem_cons.2 ⟨hstated, h.given⟩, h.positional⟩

theorem withPositional (h : reading.StatedBy switches args) {arg : String} (harg : arg ∈ args) :
    (reading.withPositional arg).StatedBy switches args :=
  ⟨h.given, List.cons_subset.2 ⟨harg, h.positional⟩⟩

end Reading.StatedBy

theorem statedBy_of_read {mixed : Bool} {args : List String} {reading : Reading α}
    (h : read switches mixed args = some reading) : reading.StatedBy switches args := by
  fun_induction read switches mixed args generalizing reading with
  | case1 =>
    obtain rfl := Option.some.inj h
    exact ⟨by simp, by simp⟩
  | case2 arg args =>
    obtain rfl := Option.some.inj h
    exact ⟨by simp, List.subset_cons_self ..⟩
  | case3 arg args _ _ ih =>
    obtain ⟨rest, hrest, rfl⟩ := Option.map_eq_some_iff.1 h
    have hstated := (ih hrest).of_subset (List.subset_cons_self arg args)
    exact hstated.withPositional (List.mem_cons_self ..)
  | case4 arg args =>
    obtain rfl := Option.some.inj h
    exact ⟨by simp, List.Subset.refl _⟩
  | case5 => cases h
  | case6 arg args meaning hshape ih =>
    obtain ⟨rest, hrest, rfl⟩ := Option.map_eq_some_iff.1 h
    have hstated := (ih hrest).of_subset (List.subset_cons_self arg args)
    exact hstated.withSwitch (.of_recognizes (recognizes_of_shape hshape))
  | case7 => cases h
  | case8 arg meaning hshape value args ih =>
    -- The value is the next argument as a whole.
    obtain ⟨rest, hrest, rfl⟩ := Option.map_eq_some_iff.1 h
    have hsubset : args ⊆ arg :: value :: args := by simp
    cases recognizes_of_shape hshape with
    | awaits hmem =>
      have hstated : Stated switches (arg :: value :: args) (meaning value) :=
        .valued hmem (by simp) (List.suffix_refl value.toList)
      exact ((ih hrest).of_subset hsubset).withSwitch hstated

end AlignmentConfig.Options
