import DraEnv.GoStd.Binary

/-!
Lexical paths as Go's `path/filepath` treats them on Unix.

`filepath.Clean` is stated on the components of a path rather than on its
bytes: `.` and empty components vanish, `..` takes the component before it
away where there is one. The result the sources rely on is `join_eq`:
joining plain names to a directory puts a string in front of them that
depends on the directory alone. Different names then give different
paths, and paths compare as the names do.
-/

namespace DraEnv.GoStd

def slash : UInt8 := 47

def dot : GoString := [46]

def dotDot : GoString := [46, 46]

/-- A file name that is one component: what a directory listing returns. -/
structure Plain (name : GoString) : Prop where
  ne_nil : name ≠ []
  ne_dot : name ≠ dot
  ne_dotDot : name ≠ dotDot
  no_slash : slash ∉ name

instance (name : GoString) : Decidable (Plain name) :=
  decidable_of_iff (name ≠ [] ∧ name ≠ dot ∧ name ≠ dotDot ∧ slash ∉ name)
    ⟨fun h => ⟨h.1, h.2.1, h.2.2.1, h.2.2.2⟩,
      fun h => ⟨h.ne_nil, h.ne_dot, h.ne_dotDot, h.no_slash⟩⟩

/-- Three bytes and no slash make a name. -/
theorem plain_of_length {name : GoString} (hlength : 2 < name.length) (hslash : slash ∉ name) :
    Plain name := by
  have hne : ∀ short : GoString, short.length ≤ 2 → name ≠ short := by
    intro short hshort heq
    rw [heq] at hlength
    omega
  exact ⟨hne _ (by decide), hne _ (by decide), hne _ (by decide), hslash⟩

/-- A name of three bytes stays a name when more bytes follow. -/
theorem Plain.append {name rest : GoString} (h : Plain name) (hlength : 2 < name.length)
    (hrest : slash ∉ rest) : Plain (name ++ rest) := by
  refine plain_of_length ?_ ?_
  · rw [List.length_append]
    omega
  · simp [h.no_slash, hrest]

/-- One component of the path under way; `stack` holds the ones kept so far,
last first. -/
def cleanStep (rooted : Bool) (stack : List GoString) (c : GoString) : List GoString :=
  if c = [] ∨ c = dot then stack
  else if c = dotDot then
    match stack with
    | [] => if rooted then [] else [dotDot]
    | top :: rest => if top = dotDot then dotDot :: stack else rest
  else c :: stack

def isRooted (path : GoString) : Bool := path.head? == some slash

def cleanStack (path : GoString) : List GoString :=
  (path.splitOn slash).foldl (cleanStep (isRooted path)) []

/-- `filepath.Clean` -/
def clean (path : GoString) : GoString :=
  let body := [slash].intercalate (cleanStack path).reverse
  if isRooted path then slash :: body
  else if body = [] then dot
  else body

/-- `filepath.Join`: leading empty elements are dropped. -/
def join (elem : List GoString) : GoString :=
  match elem.dropWhile (· == []) with
  | [] => []
  | elem => clean ([slash].intercalate elem)

/-- What `join` puts in front of names joined to `dir`. -/
def joinPrefix (dir : GoString) : GoString :=
  (if isRooted dir then [slash] else []) ++
    (cleanStack dir).reverse.flatMap (· ++ [slash])

theorem cleanStep_plain (rooted : Bool) (stack : List GoString) {c : GoString} (hc : Plain c) :
    cleanStep rooted stack c = c :: stack := by
  unfold cleanStep
  rw [if_neg (by simp [hc.ne_nil, hc.ne_dot]), if_neg hc.ne_dotDot]

theorem foldl_cleanStep_plain (rooted : Bool) (names : List GoString)
    (hnames : ∀ c ∈ names, Plain c) (stack : List GoString) :
    names.foldl (cleanStep rooted) stack = names.reverse ++ stack := by
  induction names generalizing stack with
  | nil => rfl
  | cons c names ih =>
      rw [List.foldl_cons, cleanStep_plain rooted stack (hnames c (by simp)),
        ih (fun d hd => hnames d (by simp [hd]))]
      simp

theorem intercalate_append {sep : GoString} (front : List GoString) {names : List GoString}
    (hne : names ≠ []) :
    sep.intercalate (front ++ names) = front.flatMap (· ++ sep) ++ sep.intercalate names := by
  induction front with
  | nil => simp
  | cons c front ih =>
      rw [List.cons_append, List.intercalate_cons_of_ne_nil (by simp [hne]), ih]
      simp

theorem exists_cons_intercalate {parts : List GoString} (hne : parts ≠ [])
    (hparts : ∀ c ∈ parts, c ≠ [] ∧ slash ∉ c) :
    ∃ b rest, [slash].intercalate parts = b :: rest ∧ b ≠ slash := by
  obtain ⟨c, rest, rfl⟩ := List.exists_cons_of_ne_nil hne
  obtain ⟨hc, hslash⟩ := hparts c List.mem_cons_self
  obtain ⟨b, c, rfl⟩ := List.exists_cons_of_ne_nil hc
  have hb : b ≠ slash := by
    intro hb
    exact hslash (by simp [hb])
  cases rest with
  | nil => exact ⟨b, c, by simp, hb⟩
  | cons d rest => exact ⟨b, _, by rw [List.intercalate_cons_cons]; rfl, hb⟩

theorem Plain.component {c : GoString} (hc : Plain c) : c ≠ [] ∧ slash ∉ c :=
  ⟨hc.ne_nil, hc.no_slash⟩

/-- A path whose last components are plain names ends in exactly these names. -/
theorem clean_eq {path : GoString} {stack names : List GoString} (hne : names ≠ [])
    (hnames : ∀ c ∈ names, Plain c) (hstack : cleanStack path = names.reverse ++ stack) :
    clean path = (if isRooted path then [slash] else []) ++ stack.reverse.flatMap (· ++ [slash]) ++
      [slash].intercalate names := by
  have hbody : [slash].intercalate (cleanStack path).reverse =
      stack.reverse.flatMap (· ++ [slash]) ++ [slash].intercalate names := by
    rw [hstack, List.reverse_append, List.reverse_reverse, intercalate_append _ hne]
  obtain ⟨b, rest, hcons, -⟩ :=
    exists_cons_intercalate hne fun c hc => (hnames c hc).component
  simp only [clean, hbody]
  cases isRooted path with
  | true => simp
  | false => simp [hcons]

/-- Joining plain names to a directory. -/
theorem join_eq (dir : GoString) {names : List GoString} (hne : names ≠ [])
    (hnames : ∀ c ∈ names, Plain c) :
    join (dir :: names) = joinPrefix dir ++ [slash].intercalate names := by
  have hsplit : ([slash].intercalate names).splitOn slash = names :=
    List.splitOn_intercalate slash (fun c hc => (hnames c hc).no_slash) hne
  obtain ⟨b, rest, hcons, hb⟩ :=
    exists_cons_intercalate hne fun c hc => (hnames c hc).component
  cases dir with
  | nil =>
      -- an empty directory is dropped and the names are cleaned on their own
      have hrooted : isRooted ([slash].intercalate names) = false := by
        simp [isRooted, hcons, hb]
      have hdrop : (([] : GoString) :: names).dropWhile (· == []) = names := by
        cases names with
        | nil => exact absurd rfl hne
        | cons c names =>
            have hc : c ≠ [] := (hnames c (by simp)).ne_nil
            simp [hc]
      have hstack : cleanStack ([slash].intercalate names) = names.reverse ++ [] := by
        rw [cleanStack, hsplit, foldl_cleanStep_plain _ _ hnames]
      cases names with
      | nil => exact absurd rfl hne
      | cons c names =>
          simp only [join, hdrop]
          rw [clean_eq hne hnames hstack, hrooted]
          rfl
  | cons d dir =>
      have hpath : [slash].intercalate ((d :: dir) :: names) =
          (d :: dir) ++ slash :: [slash].intercalate names := by
        rw [List.intercalate_cons_of_ne_nil hne]
        simp
      have hrooted : isRooted ((d :: dir) ++ slash :: [slash].intercalate names) =
          isRooted (d :: dir) := rfl
      have hstack : cleanStack ((d :: dir) ++ slash :: [slash].intercalate names) =
          names.reverse ++ cleanStack (d :: dir) := by
        rw [cleanStack, hrooted, List.splitOn_append_cons_self, List.foldl_append, hsplit,
          foldl_cleanStep_plain _ _ hnames, cleanStack]
      simp only [join, List.dropWhile_cons, show ((d :: dir) == ([] : GoString)) = false from rfl,
        Bool.false_eq_true, if_false]
      rw [hpath, clean_eq hne hnames hstack, hrooted, joinPrefix]

/-- Different plain names give different paths. -/
theorem join_inj {dir : GoString} {names names' : List GoString} (hne : names ≠ [])
    (hne' : names' ≠ []) (hnames : ∀ c ∈ names, Plain c) (hnames' : ∀ c ∈ names', Plain c) :
    join (dir :: names) = join (dir :: names') ↔ names = names' := by
  refine ⟨fun h => ?_, fun h => by rw [h]⟩
  rw [join_eq dir hne hnames, join_eq dir hne' hnames'] at h
  have hsplit := congrArg (List.splitOn slash) (List.append_cancel_left h)
  rwa [List.splitOn_intercalate slash (fun c hc => (hnames c hc).no_slash) hne,
    List.splitOn_intercalate slash (fun c hc => (hnames' c hc).no_slash) hne'] at hsplit

theorem join_name (dir : GoString) {name : GoString} (hname : Plain name) :
    join [dir, name] = joinPrefix dir ++ name := by
  rw [join_eq dir (by simp) (by simpa using hname), List.intercalate_singleton]

theorem splitOn_plain {name : GoString} (hname : Plain name) : name.splitOn slash = [name] :=
  List.splitOn_eq_singleton hname.no_slash

/-! ### Cleaned stacks -/

/-- What is left of a path: names, under which there may be steps out of the directory
the path starts in. -/
def Cleaned (rooted : Bool) (stack : List GoString) : Prop :=
  ∃ names k, stack = names ++ List.replicate k dotDot ∧ (∀ c ∈ names, Plain c) ∧
    (rooted = true → k = 0)

theorem cleaned_cleanStep {rooted : Bool} {stack : List GoString} {c : GoString}
    (h : Cleaned rooted stack) (hc : slash ∉ c) : Cleaned rooted (cleanStep rooted stack c) := by
  obtain ⟨names, k, rfl, hnames, hk⟩ := h
  unfold cleanStep
  split
  next => exact ⟨names, k, rfl, hnames, hk⟩
  next hempty =>
    split
    next hup =>
      cases names with
      | nil =>
          cases k with
          | zero =>
              cases rooted with
              | true => exact ⟨[], 0, rfl, by simp, fun _ => rfl⟩
              | false => exact ⟨[], 1, rfl, by simp, by simp⟩
          | succ k =>
              have hrooted : ¬ rooted = true := fun hrooted => absurd (hk hrooted) (by simp)
              refine ⟨[], k + 2, ?_, by simp, fun hrooted' => absurd hrooted' hrooted⟩
              simp [List.replicate_succ]
      | cons top names =>
          have htop : top ≠ dotDot := (hnames top List.mem_cons_self).ne_dotDot
          refine ⟨names, k, ?_, fun c hc => hnames c (List.mem_cons_of_mem _ hc), hk⟩
          simp [htop]
    next hname =>
      rw [not_or] at hempty
      refine ⟨c :: names, k, rfl, ?_, hk⟩
      rw [List.forall_mem_cons]
      exact ⟨⟨hempty.1, hempty.2, hname, hc⟩, hnames⟩

theorem slash_not_mem_splitOn {path c : GoString} (hc : c ∈ path.splitOn slash) : slash ∉ c := by
  induction path generalizing c with
  | nil =>
      rw [List.splitOn_nil, List.mem_singleton] at hc
      simp [hc]
  | cons b path ih =>
      rw [List.splitOn_cons_eq_if_modifyHead] at hc
      split at hc
      next =>
        rcases List.mem_cons.mp hc with rfl | hc
        · simp
        · exact ih hc
      next hb =>
        obtain ⟨first, rest, hsplit⟩ := List.exists_cons_of_ne_nil (List.splitOn_ne_nil slash path)
        rw [hsplit, List.modifyHead_cons] at hc
        rw [hsplit] at ih
        rcases List.mem_cons.mp hc with rfl | hc
        · simpa [eq_comm] using ⟨by simpa using hb, ih List.mem_cons_self⟩
        · exact ih (List.mem_cons_of_mem _ hc)

theorem cleaned_cleanStack (path : GoString) : Cleaned (isRooted path) (cleanStack path) := by
  have hrun : ∀ (parts stack : List GoString), (∀ c ∈ parts, slash ∉ c) →
      Cleaned (isRooted path) stack →
      Cleaned (isRooted path) (parts.foldl (cleanStep (isRooted path)) stack) := by
    intro parts
    induction parts with
    | nil => exact fun _ _ h => h
    | cons c parts ih =>
        intro stack hparts h
        rw [List.forall_mem_cons] at hparts
        exact ih _ hparts.2 (cleaned_cleanStep h hparts.1)
  exact hrun _ [] (fun c hc => slash_not_mem_splitOn hc) ⟨[], 0, rfl, by simp, fun _ => rfl⟩

/-- A cleaned stack is what its own components leave. -/
theorem foldl_cleanStep_cleaned {rooted : Bool} {stack : List GoString}
    (h : Cleaned rooted stack) : stack.reverse.foldl (cleanStep rooted) [] = stack := by
  obtain ⟨names, k, rfl, hnames, hk⟩ := h
  have hups : (List.replicate k dotDot).foldl (cleanStep rooted) [] = List.replicate k dotDot := by
    cases rooted with
    | true => rw [hk rfl, List.replicate_zero, List.foldl_nil]
    | false =>
        clear hk hnames
        induction k with
        | zero => rfl
        | succ k ih =>
            rw [List.replicate_succ', List.foldl_append, ih, ← List.replicate_succ']
            cases k with
            | zero => decide
            | succ k => simp [cleanStep, List.replicate_succ, dotDot, dot]
  rw [List.reverse_append, List.reverse_replicate, List.foldl_append, hups,
    foldl_cleanStep_plain _ _ (by simpa using hnames), List.reverse_reverse]

theorem Cleaned.component {rooted : Bool} {stack : List GoString} (h : Cleaned rooted stack)
    {c : GoString} (hc : c ∈ stack) : c ≠ [] ∧ slash ∉ c := by
  obtain ⟨names, k, rfl, hnames, -⟩ := h
  rcases List.mem_append.mp hc with hc | hc
  · exact (hnames c hc).component
  · rw [List.eq_of_mem_replicate hc]
    decide

/-- The path leads to an entry of that name in the directory itself. -/
structure IsChild (dir name path : GoString) : Prop where
  rooted : isRooted path = isRooted dir
  components : cleanStack path = name :: cleanStack dir

/-- A plain name joined to a directory is a child of it, however the directory is
written. -/
theorem isChild_join (dir : GoString) {name : GoString} (hname : Plain name) :
    IsChild dir name (join [dir, name]) := by
  have hcleaned := cleaned_cleanStack dir
  have hne : (cleanStack dir).reverse ++ [name] ≠ [] := by simp
  have hparts : ∀ c ∈ (cleanStack dir).reverse ++ [name], c ≠ [] ∧ slash ∉ c := by
    intro c hc
    rcases List.mem_append.mp hc with hc | hc
    · exact hcleaned.component (List.mem_reverse.mp hc)
    · rw [List.mem_singleton.mp hc]
      exact hname.component
  have hjoin : join [dir, name] = (if isRooted dir then [slash] else []) ++
      [slash].intercalate ((cleanStack dir).reverse ++ [name]) := by
    rw [join_name dir hname, joinPrefix, intercalate_append _ (by simp),
      List.intercalate_singleton, List.append_assoc]
  -- the components of the joined path are those of the cleaned directory and the name
  have hfold : (([slash].intercalate ((cleanStack dir).reverse ++ [name])).splitOn slash).foldl
      (cleanStep (isRooted dir)) [] = name :: cleanStack dir := by
    rw [List.splitOn_intercalate slash (fun c hc => (hparts c hc).2) hne, List.foldl_append,
      foldl_cleanStep_cleaned hcleaned, List.foldl_cons, List.foldl_nil, cleanStep_plain _ _ hname]
  cases hrooted : isRooted dir with
  | false =>
      rw [hrooted, if_neg (by decide), List.nil_append] at hjoin
      have hchild : isRooted (join [dir, name]) = false := by
        obtain ⟨b, rest, hcons, hb⟩ := exists_cons_intercalate hne hparts
        simp [hjoin, isRooted, hcons, hb]
      refine ⟨hchild.trans hrooted.symm, ?_⟩
      rw [cleanStack, hchild, hjoin, ← hrooted, hfold]
  | true =>
      rw [hrooted, if_pos rfl, List.singleton_append] at hjoin
      have hchild : isRooted (join [dir, name]) = true := by
        rw [hjoin]
        rfl
      refine ⟨hchild.trans hrooted.symm, ?_⟩
      rw [cleanStack, hchild, hjoin, ← hrooted, ← List.nil_append (slash :: _),
        List.splitOn_append_cons_self, List.foldl_append]
      exact hfold

theorem joinPrefix_append {dir name : GoString} (hdir : dir ≠ []) (hname : Plain name) :
    joinPrefix (dir ++ slash :: name) = joinPrefix dir ++ (name ++ [slash]) := by
  have hrooted : isRooted (dir ++ slash :: name) = isRooted dir := by
    cases dir with
    | nil => exact absurd rfl hdir
    | cons b dir => rfl
  have hstack : cleanStack (dir ++ slash :: name) = name :: cleanStack dir := by
    rw [cleanStack, hrooted, List.splitOn_append_cons_self, splitOn_plain hname,
      List.foldl_append, List.foldl_cons, List.foldl_nil, cleanStep_plain _ _ hname, cleanStack]
  rw [joinPrefix, hrooted, hstack, List.reverse_cons, List.flatMap_append, List.flatMap_singleton,
    ← List.append_assoc, ← joinPrefix]

/-! ### The last component -/

/-- What follows the last slash of a path. -/
def lastComponent (path : GoString) : GoString := (path.splitOn slash).getLastD []

theorem lastComponent_append {name : GoString} (hname : Plain name) {front : GoString}
    (hfront : front = [] ∨ ∃ dir, front = dir ++ [slash]) :
    lastComponent (front ++ name) = name := by
  rcases hfront with rfl | ⟨dir, rfl⟩
  · rw [List.nil_append, lastComponent, splitOn_plain hname]
    rfl
  · rw [List.append_assoc, List.singleton_append, lastComponent, List.splitOn_append_cons_self,
      splitOn_plain hname, List.getLastD_concat]

theorem ends_in_slash (rooted : Bool) (stack : List GoString) :
    let front := (if rooted then [slash] else []) ++ stack.flatMap (· ++ [slash])
    front = [] ∨ ∃ dir, front = dir ++ [slash] := by
  rcases List.eq_nil_or_concat stack with rfl | ⟨stack, c, rfl⟩
  · cases rooted with
    | false => exact Or.inl rfl
    | true => exact Or.inr ⟨[], rfl⟩
  · exact Or.inr ⟨(if rooted then [slash] else []) ++ stack.flatMap (· ++ [slash]) ++ c, by simp⟩

theorem dropWhile_append_plain (elem : List GoString) {name : GoString} (hname : Plain name) :
    (elem ++ [name]).dropWhile (· == []) = elem.dropWhile (· == []) ++ [name] := by
  induction elem with
  | nil => simp [hname.ne_nil]
  | cons c elem ih =>
      cases c with
      | nil => exact ih
      | cons b c => rfl

theorem cleanStack_append_plain (front : List GoString) {name : GoString} (hname : Plain name) :
    ∃ stack, cleanStack ([slash].intercalate (front ++ [name])) = [name].reverse ++ stack := by
  rw [intercalate_append front (by simp), List.intercalate_singleton]
  rcases ends_in_slash false front with hnil | ⟨dir, hdir⟩
  · simp only [Bool.false_eq_true, if_false, List.nil_append] at hnil
    rw [hnil, List.nil_append, cleanStack, splitOn_plain hname, List.foldl_cons,
      cleanStep_plain _ _ hname]
    exact ⟨[], rfl⟩
  · simp only [Bool.false_eq_true, if_false, List.nil_append] at hdir
    rw [hdir, List.append_assoc, List.singleton_append, cleanStack,
      List.splitOn_append_cons_self, splitOn_plain hname, List.foldl_append, List.foldl_cons,
      cleanStep_plain _ _ hname]
    exact ⟨_, rfl⟩

/-- A path joined from any parts ends in the last of them, if that is a name. -/
theorem lastComponent_join (elem : List GoString) {name : GoString} (hname : Plain name) :
    lastComponent (join (elem ++ [name])) = name := by
  obtain ⟨stack, hstack⟩ := cleanStack_append_plain (elem.dropWhile (· == [])) hname
  have hjoin : join (elem ++ [name]) =
      clean ([slash].intercalate (elem.dropWhile (· == []) ++ [name])) := by
    rw [join, dropWhile_append_plain elem hname]
    cases elem.dropWhile (· == []) <;> rfl
  rw [hjoin, clean_eq (by simp) (by simpa using hname) hstack, List.intercalate_singleton]
  exact lastComponent_append hname (ends_in_slash _ _)

theorem lastComponent_join_name (dir : GoString) {name : GoString} (hname : Plain name) :
    lastComponent (join [dir, name]) = name :=
  lastComponent_join [dir] hname

/-! ### Rooted paths -/

/-- The components of joined strings are the components of each. -/
theorem splitOn_intercalate_flatMap {parts : List GoString} (hne : parts ≠ []) :
    ([slash].intercalate parts).splitOn slash = parts.flatMap (·.splitOn slash) := by
  induction parts with
  | nil => exact absurd rfl hne
  | cons c parts ih =>
      cases parts with
      | nil => simp
      | cons d parts =>
          rw [List.intercalate_cons_cons, List.append_assoc, List.singleton_append,
            List.splitOn_append_cons_self, ih (by simp), ← List.flatMap_cons]

/-- A rooted path and its cleaned form have the same components left. -/
theorem cleanStack_clean {path : GoString} (h : isRooted path = true) :
    isRooted (clean path) = true ∧ cleanStack (clean path) = cleanStack path := by
  have hclean : clean path = [] ++ slash :: [slash].intercalate (cleanStack path).reverse := by
    simp [clean, h]
  have hrooted : isRooted (clean path) = true := by
    rw [hclean]
    rfl
  refine ⟨hrooted, ?_⟩
  have hcleaned := cleaned_cleanStack path
  rw [h] at hcleaned
  rw [cleanStack, hrooted, hclean, List.splitOn_append_cons_self, List.splitOn_nil,
    List.foldl_append]
  cases hstack : cleanStack path with
  | nil => rfl
  | cons c stack =>
      have hne : (c :: stack).reverse ≠ [] := by simp
      have hslash : ∀ d ∈ (c :: stack).reverse, slash ∉ d := by
        intro d hd
        rw [List.mem_reverse, ← hstack] at hd
        exact (hcleaned.component hd).2
      rw [List.splitOn_intercalate slash hslash hne, ← hstack]
      exact foldl_cleanStep_cleaned hcleaned

/-- What is left of a path joined to a rooted directory. -/
theorem cleanStack_join {dir : GoString} (hdir : isRooted dir = true) (elem : List GoString) :
    isRooted (join (dir :: elem)) = true ∧
      cleanStack (join (dir :: elem)) =
        (elem.flatMap (·.splitOn slash)).foldl (cleanStep true) (cleanStack dir) := by
  obtain ⟨b, dir, rfl⟩ : ∃ b rest, dir = b :: rest := by
    cases dir with
    | nil => simp [isRooted] at hdir
    | cons b rest => exact ⟨b, rest, rfl⟩
  have hjoin : join ((b :: dir) :: elem) = clean ([slash].intercalate ((b :: dir) :: elem)) := rfl
  have hrooted : isRooted ([slash].intercalate ((b :: dir) :: elem)) = true := by
    cases elem with
    | nil => simpa using hdir
    | cons c elem =>
        rw [List.intercalate_cons_cons]
        exact hdir
  obtain ⟨hclean, hstack⟩ := cleanStack_clean hrooted
  rw [hjoin]
  refine ⟨hclean, ?_⟩
  rw [hstack, cleanStack, hrooted, splitOn_intercalate_flatMap (by simp), List.flatMap_cons,
    List.foldl_append, cleanStack, hdir]

end DraEnv.GoStd
