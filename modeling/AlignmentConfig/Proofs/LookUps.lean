-- SUMMARY: Looking texts up in a tree of files: which spellings of a path find the same directory, and what is refused.
import AlignmentConfig.Path
import AlignmentConfig.Proofs.Splitting

/-!
# Look-ups

A path may be looked up under a text that spells it, or under the text that shows
it. The two walk through the same names, and dots and empty parts change nothing
in a directory; so they find the same directory, unless the text that was given
is too long. Below a file they do differ: nothing stands under its name with a
slash behind it.
-/

namespace AlignmentConfig

open Text

/-! ## The text that shows a path -/

namespace Path

theorem mem_parts_iff {text part : String} :
    part ∈ (ofText text).parts ↔ part ∈ slash.split text ∧ part ≠ "" ∧ part ≠ "." := by
  simp [ofText]

theorem root_cases (text : String) :
    (ofText text).root = "" ∨ (ofText text).root = "/" ∨ (ofText text).root = "//" := by
  show rootOf text.toList = _ ∨ rootOf text.toList = _ ∨ rootOf text.toList = _
  unfold rootOf
  split <;> simp

theorem rootOf_slashes {cs : List Char} (h : cs.head? ≠ some '/') :
    rootOf cs = "" ∧ rootOf ('/' :: cs) = "/" ∧ rootOf ('/' :: '/' :: cs) = "//" := by
  cases cs with
  | nil => decide
  | cons c cs =>
    have hc : c ≠ '/' := by simpa using h
    simp [rootOf, hc]

/-- A slash between two texts keeps the parts of both. -/
theorem parts_append (front back : String) :
    (ofText (front ++ "/" ++ back)).parts = (ofText front).parts ++ (ofText back).parts := by
  have hsplit : slash.split (front ++ "/" ++ back) = slash.split front ++ slash.split back :=
    Separator.split_append '/' front back
  simp only [ofText, hsplit, List.filter_append]

/-- A root in front of a text without one is the root of the whole. -/
theorem ofText_append {root rest : String} (hroot : root = "" ∨ root = "/" ∨ root = "//")
    (hrest : rest.toList.head? ≠ some '/') :
    (ofText (root ++ rest)).root = root ∧ (ofText (root ++ rest)).parts = (ofText rest).parts := by
  obtain ⟨hnone, hone, htwo⟩ := rootOf_slashes hrest
  rcases hroot with rfl | rfl | rfl
  · rw [String.empty_append]
    exact ⟨hnone, rfl⟩
  · have hchars : ("/" ++ rest).toList = '/' :: rest.toList := String.toList_append
    have hblank : (ofText "").parts = [] := by decide +kernel
    exact ⟨by rw [ofText, hchars, hone], by simpa [hblank] using parts_append "" rest⟩
  · have hchars : ("//" ++ rest).toList = '/' :: '/' :: rest.toList := String.toList_append
    have hblank : (ofText "/").parts = [] := by decide +kernel
    exact ⟨by rw [ofText, hchars, htwo], by simpa [hblank] using parts_append "/" rest⟩

/-- Names that are joined to a text are the parts of that text, and it has no root. -/
theorem parts_join {names : List String}
    (h : ∀ name ∈ names, '/' ∉ name.toList ∧ name ≠ "" ∧ name ≠ ".") :
    (ofText (slash.join names)).parts = names ∧ (slash.join names).toList.head? ≠ some '/' := by
  cases names with
  | nil => decide +kernel
  | cons name names =>
    have hslash : ∀ n ∈ name :: names, '/' ∉ n.toList := fun n hn => (h n hn).1
    constructor
    · rw [ofText, slash, Separator.split_join (List.cons_ne_nil name names) hslash]
      simpa using fun n hn => (h n hn).2
    · obtain ⟨hfree, hne, -⟩ := h name List.mem_cons_self
      have hchars : (slash.join (name :: names)).toList.head? = name.toList.head? := by
        cases names with
        | nil => simp [Separator.join]
        | cons =>
          have hnil : name.toList ≠ [] := by simpa using hne
          rw [Separator.join, String.intercalate_cons_cons, String.append_assoc,
            String.toList_append, List.head?_append_of_ne_nil _ hnil]
      rw [hchars]
      intro hhead
      exact hfree (List.mem_of_head? hhead)

/-- The text that shows a path spells the path. -/
theorem ofText_shown (text : String) : ofText (ofText text).shown = ofText text := by
  have hnames : ∀ name ∈ (ofText text).parts, '/' ∉ name.toList ∧ name ≠ "" ∧ name ≠ "." := by
    intro name hname
    obtain ⟨hsplit, hproper⟩ := mem_parts_iff.1 hname
    exact ⟨Separator.not_mem_of_mem_split hsplit, hproper⟩
  obtain ⟨hparts, hhead⟩ := parts_join hnames
  unfold shown
  split
  · next hempty =>
    have hdot : ofText "." = ⟨"", []⟩ := by decide +kernel
    rw [hdot, ← hempty.1, ← hempty.2]
  · obtain ⟨hroot, hsame⟩ := ofText_append (root_cases text) hhead
    rw [hparts] at hsame
    exact Path.ext hroot hsame

/-- A text that is one name is shown as it is. -/
theorem shown_of_name {name : String} (hslash : '/' ∉ name.toList) (hne : name ≠ "")
    (hdot : name ≠ ".") : (ofText name).shown = name := by
  have hjoin : slash.join [name] = name := by simp [Separator.join]
  obtain ⟨hparts, hhead⟩ := @parts_join [name] (by simpa using ⟨hslash, hne, hdot⟩)
  rw [hjoin] at hparts hhead
  have hroot : (ofText name).root = "" := (rootOf_slashes hhead).1
  rw [shown, hroot, hparts, if_neg (by simp), hjoin, String.empty_append]

/-- Single dots with slashes behind them spell the path of no parts, however many they are. -/
theorem shown_dots (n : Nat) : (ofText (String.join (List.replicate n "./"))).shown = "." := by
  have hparts : (ofText (String.join (List.replicate n "./"))).parts = [] := by
    induction n with
    | zero => decide +kernel
    | succ n ih =>
      have hdot : (ofText ".").parts = [] := by decide +kernel
      rw [List.replicate_succ, String.join_cons]
      exact (parts_append "." _).trans (by rw [hdot, ih, List.append_nil])
  have hroot : (ofText (String.join (List.replicate n "./"))).root = "" := by
    cases n with
    | zero => decide +kernel
    | succ n => exact (rootOf_slashes (by simp [List.replicate_succ])).1
  rw [shown, if_pos ⟨hroot, hparts⟩]

end Path

/-! ## Walks -/

namespace FileTree

variable {tree : FileTree} {text : String} {d : Directory}

/-- A walk that ends in a directory leads through directories only. -/
theorem exists_of_foldl_step {parts : List String} {place : Place}
    (h : parts.foldl tree.step place = .directory d) : ∃ e, place = .directory e := by
  induction parts generalizing place with
  | nil => exact ⟨d, h⟩
  | cons part parts ih =>
    obtain ⟨e, he⟩ := ih h
    cases place with
    | directory e => exact ⟨e, rfl⟩
    | file bytes | nowhere | refused => cases he

/-- A walk ends in the same directory with and without the parts that mean nothing in a path. -/
theorem foldl_step_filter_iff {parts : List String} {place : Place} :
    (parts.filter fun part => part ≠ "" && part ≠ ".").foldl tree.step place = .directory d ↔
      parts.foldl tree.step place = .directory d := by
  induction parts generalizing place with
  | nil => rfl
  | cons part parts ih =>
    by_cases hpart : part = "" ∨ part = "."
    · rw [List.filter_cons_of_neg (by simpa [or_iff_not_imp_left] using hpart), List.foldl_cons, ← ih]
      cases place with
      | directory e => rw [step, if_pos hpart]
      | file bytes | nowhere | refused =>
        -- Neither walk starts in a directory, so neither ends in one.
        exact iff_of_false (fun h => by simpa using exists_of_foldl_step h)
          (fun h => by simpa [step] using exists_of_foldl_step h)
    · rw [List.filter_cons_of_pos (by simpa [not_or] using hpart), List.foldl_cons,
        List.foldl_cons, ih]

/-- Texts that spell the same path lead to the same directory. -/
theorem follow_eq_directory_congr {other : String} (h : Path.ofText other = Path.ofText text) :
    tree.follow other = .directory d ↔ tree.follow text = .directory d := by
  have hroot : Path.rootOf other.toList = Path.rootOf text.toList := congrArg Path.root h
  have hparts := congrArg Path.parts h
  simp only [Path.ofText] at hparts
  rw [follow, follow, hroot, ← foldl_step_filter_iff, hparts, foldl_step_filter_iff]

/-! ## Entries -/

theorem entries_of_short (hne : text ≠ "") (hnul : '\x00' ∉ text.toList)
    (h : text.utf8ByteSize ≤ textLimit) : tree.entries text = (tree.follow text).entry := by
  rw [entries, if_neg (by simp [hne, hnul]), if_neg (Nat.not_lt_of_le h)]

theorem entries_of_long (hnul : '\x00' ∉ text.toList) (h : textLimit < text.utf8ByteSize) :
    tree.entries text = .refused := by
  have hne : text ≠ "" := by
    rintro rfl
    simp at h
  rw [entries, if_neg (by simp [hne, hnul]), if_pos h]

theorem exists_of_entries_eq_directory (h : tree.entries text = .directory) :
    ∃ d, tree.follow text = .directory d := by
  unfold entries at h
  split at h
  · cases h
  · split at h
    · cases h
    · cases hplace : tree.follow text with
      | directory d => exact ⟨d, rfl⟩
      | file bytes | nowhere | refused =>
        rw [hplace] at h
        cases h

/-- A directory that is found under the text that shows a path is found under every text that spells
    it, unless the text is empty or refused. -/
theorem entries_of_shown (hne : text ≠ "") (hnul : '\x00' ∉ text.toList)
    (h : tree.entries (Path.ofText text).shown = .directory) :
    tree.entries text = .directory ∨ tree.entries text = .refused := by
  obtain ⟨d, hshown⟩ := exists_of_entries_eq_directory h
  have hfollow := (follow_eq_directory_congr (Path.ofText_shown text)).1 hshown
  rcases Nat.lt_or_ge textLimit text.utf8ByteSize with hlong | hshort
  · exact .inr (entries_of_long hnul hlong)
  · left
    rw [entries_of_short hne hnul hshort, hfollow]
    rfl

/-- The working directory is a directory. -/
theorem entries_dot (tree : FileTree) : tree.entries "." = .directory := by
  have hsplit : Path.slash.split "." = ["."] := by decide +kernel
  rw [entries_of_short (by decide) (by decide) (by decide), follow, hsplit]
  rfl

/-! ## Refused look-ups -/

/-- Enough dots are refused, where the path that they spell is the working directory. -/
theorem entries_dots (tree : FileTree) {n : Nat} (h : textLimit < 2 * n) :
    tree.entries (String.join (List.replicate n "./")) = .refused := by
  have hsize : (String.join (List.replicate n "./")).utf8ByteSize = 2 * n := by
    clear h
    induction n with
    | zero => rfl
    | succ n ih =>
      rw [List.replicate_succ, String.join_cons, String.utf8ByteSize_append, ih]
      have hpiece : "./".utf8ByteSize = 2 := by decide
      omega
  exact entries_of_long (by simp) (by rwa [hsize])

/-- A text that is one name, but too long for a directory. -/
structure LongName (name : String) : Prop where
  nul : '\x00' ∉ name.toList
  slash : '/' ∉ name.toList
  long : nameLimit < name.utf8ByteSize

theorem LongName.ne {name short : String} (h : LongName name)
    (hshort : short.utf8ByteSize ≤ nameLimit) : name ≠ short := by
  rintro rfl
  exact Nat.not_le_of_lt h.long hshort

theorem LongName.shown {name : String} (h : LongName name) : (Path.ofText name).shown = name :=
  Path.shown_of_name h.slash (h.ne (by decide)) (h.ne (by decide))

/-- A name that is too long is refused, whatever is in the working directory. -/
theorem LongName.entries (tree : FileTree) {name : String} (h : LongName name) :
    tree.entries name = .refused := by
  have hempty : name ≠ "" := h.ne (by decide)
  have hdot : name ≠ "." := h.ne (by decide)
  have hdots : name ≠ ".." := h.ne (by decide)
  rcases Nat.lt_or_ge textLimit name.utf8ByteSize with hlong | hshort
  · exact entries_of_long h.nul hlong
  · have hroot : Path.rootOf name.toList = "" :=
      (Path.rootOf_slashes fun hhead => h.slash (List.mem_of_head? hhead)).1
    have hsplit : Path.slash.split name = [name] := by
      rw [Path.slash, Separator.split_ofChar, List.splitOn_eq_singleton h.slash]
      simp
    have hfollow : tree.follow name = .refused := by
      rw [follow, hroot, hsplit, List.foldl_cons, List.foldl_nil, step,
        if_neg (by simp [hempty, hdot]), if_neg hdots, if_pos h.long]
    rw [entries_of_short hempty h.nul hshort, hfollow]
    rfl

theorem longName_replicate {c : Char} (hnul : c ≠ '\x00') (hslash : c ≠ '/') {n : Nat}
    (h : nameLimit < n) : LongName (String.ofList (List.replicate n c)) := by
  have hother : ∀ d, c ≠ d → d ∉ (String.ofList (List.replicate n c)).toList := by
    intro d hd hmem
    rw [String.toList_ofList] at hmem
    exact hd (List.eq_of_mem_replicate hmem).symm
  have hsize : ∀ m, m ≤ (String.ofList (List.replicate m c)).utf8ByteSize := by
    intro m
    induction m with
    | zero => exact Nat.zero_le _
    | succ m ih =>
      rw [List.replicate_succ, String.ofList_cons, String.utf8ByteSize_append,
        String.utf8ByteSize_singleton]
      have hone := c.utf8Size_pos
      omega
  exact ⟨hother _ hnul, hother _ hslash, Nat.lt_of_lt_of_le h (hsize n)⟩

end FileTree

end AlignmentConfig
