import RoutineLoader.Disk.Access
import RoutineLoader.Proofs.Text.Splitting

/-!
# Successful walks

`Walks` has a rule for each step that a walk can take, and a walk has a result exactly if the rules
derive it (`walk_eq_ok_iff`). So a fact about all walks is an induction over these rules, in which
the links left and the segments left look after themselves.

A walk that starts where every place on the way is a directory (`Reached`) ends at such a place, or
at an entry or a free place in one (`Walks.reached`). That the working directory is such a start is
`Settled`. A walk to a directory splits a longer walk (`Walks.append`).
-/

namespace RoutineLoader.Disk

variable {d d' : Disk} {ending : Ending} {links : Nat} {here : Place} {name target : String}
  {segments rest : List String} {destination : Destination}

/-! ## The rules -/

/-- Whether a segment is a name, and not nothing, `.` or `..`. -/
def IsName (segment : String) : Prop :=
  segment ≠ "" ∧ segment ≠ "." ∧ segment ≠ ".."

/-- The directory from which the target of a link in the directory `here` is read. -/
def linkBase (here : Place) (target : String) : Place :=
  if (Path.mk target).isAbsolute then [] else here

/-- Whether a walk may look up a name with these segments behind it. -/
structure LooksUp (ending : Ending) (name : String) (rest : List String) : Prop where
  isName : IsName name
  notTrailing : ¬ (ending = .file ∧ rest ≠ [] ∧ isEnd rest)
  short : name.utf8ByteSize ≤ nameLimit

/-- The walk of segments from a directory through at most `links` links leads to a destination. -/
inductive Walks (d : Disk) (ending : Ending) : Nat → Place → List String → Destination → Prop
  | stop (links : Nat) (here : Place) :
      Walks d ending links here [] (.taken here ((d.entry? here).getD (.directory d.now)))
  | stay {links : Nat} {here : Place} {name : String} {rest : List String}
      {destination : Destination} (hname : name = "" ∨ name = ".")
      (h : Walks d ending links here rest destination) :
      Walks d ending links here (name :: rest) destination
  | up {links : Nat} {here : Place} {rest : List String} {destination : Destination}
      (h : Walks d ending links here.dropLast rest destination) :
      Walks d ending links here (".." :: rest) destination
  | free {links : Nat} {here : Place} {name : String} {rest : List String}
      (hname : LooksUp ending name rest) (hentry : d.entry? (here ++ [name]) = none)
      (hending : ending ≠ .entry) (hrest : isEnd rest) :
      Walks d ending links here (name :: rest) (.free (here ++ [name]))
  | enter {links : Nat} {here : Place} {name : String} {rest : List String}
      {destination : Destination} {modified : Instant} (hname : LooksUp ending name rest)
      (hentry : d.entry? (here ++ [name]) = some (.directory modified))
      (h : Walks d ending links (here ++ [name]) rest destination) :
      Walks d ending links here (name :: rest) destination
  | follow {links : Nat} {here : Place} {name : String} {rest : List String}
      {destination : Destination} {target : String} (hname : LooksUp ending name rest)
      (hentry : d.entry? (here ++ [name]) = some (.link target))
      (hrest : ¬ (ending = .name ∧ isEnd rest))
      (h : Walks d ending links (linkBase here target) (segmentsOf ⟨target⟩ ++ rest) destination) :
      Walks d ending (links + 1) here (name :: rest) destination
  | link {links : Nat} {here : Place} {name : String} {rest : List String} {target : String}
      (hname : LooksUp ending name rest)
      (hentry : d.entry? (here ++ [name]) = some (.link target)) (hending : ending = .name)
      (hrest : isEnd rest) :
      Walks d ending links here (name :: rest) (.taken (here ++ [name]) (.link target))
  | file {links : Nat} {here : Place} {name : String} {rest : List String} {text : Option String}
      {modified : Instant} (hname : LooksUp ending name rest)
      (hentry : d.entry? (here ++ [name]) = some (.file text modified))
      (hrest : rest = [] ∨ (ending = .name ∧ isEnd rest)) :
      Walks d ending links here (name :: rest) (.taken (here ++ [name]) (.file text modified))

theorem walkFrom_name {jump : Place → String → List String → Except DiskError Destination}
    (hname : LooksUp ending name rest) :
    d.walkFrom ending jump here (name :: rest) =
      match d.entry? (here ++ [name]) with
      | none =>
        if ending ≠ .entry ∧ isEnd rest then .ok (.free (here ++ [name])) else .error .notFound
      | some (.directory _) => d.walkFrom ending jump (here ++ [name]) rest
      | some (.link target) =>
        if ending = .name ∧ isEnd rest then .ok (.taken (here ++ [name]) (.link target))
        else jump here target rest
      | some (.file text modified) =>
        if rest = [] ∨ (ending = .name ∧ isEnd rest) then
          .ok (.taken (here ++ [name]) (.file text modified))
        else .error .notDirectory := by
  obtain ⟨⟨hempty, hdot, hdots⟩, htrailing, hshort⟩ := hname
  rw [walkFrom]
  exact (if_neg (by simp [hempty, hdot])).trans <| (if_neg hdots).trans <|
    (if_neg htrailing).trans (if_neg (by omega))

theorem walkFrom_eq_ok_iff {jump : Place → String → List String → Except DiskError Destination}
    (hjump : ∀ here target rest destination, jump here target rest = .ok destination ↔
      ∃ left, links = left + 1 ∧
        Walks d ending left (linkBase here target) (segmentsOf ⟨target⟩ ++ rest) destination) :
    d.walkFrom ending jump here segments = .ok destination ↔
      Walks d ending links here segments destination := by
  constructor
  · induction segments generalizing here with
    | nil =>
      intro h
      cases h
      exact .stop links here
    | cons name rest ih =>
      intro h
      by_cases hstay : name = "" ∨ name = "."
      · rw [walkFrom, if_pos hstay] at h
        exact .stay hstay (ih h)
      by_cases hup : name = ".."
      · rw [walkFrom, if_neg hstay, if_pos hup] at h
        subst hup
        exact .up (ih h)
      by_cases htrailing : ending = .file ∧ rest ≠ [] ∧ isEnd rest
      · rw [walkFrom, if_neg hstay, if_neg hup, if_pos htrailing] at h
        cases h
      by_cases hshort : nameLimit < name.utf8ByteSize
      · rw [walkFrom, if_neg hstay, if_neg hup, if_neg htrailing, if_pos hshort] at h
        cases h
      rw [not_or] at hstay
      have hname : LooksUp ending name rest :=
        ⟨⟨hstay.1, hstay.2, hup⟩, htrailing, by omega⟩
      rw [walkFrom_name hname] at h
      cases hentry : d.entry? (here ++ [name]) with
      | none =>
        simp only [hentry] at h
        split at h
        · rename_i hfree
          cases h
          exact .free hname hentry hfree.1 hfree.2
        · cases h
      | some entry =>
        cases entry with
        | directory modified =>
          simp only [hentry] at h
          exact .enter hname hentry (ih h)
        | link target =>
          simp only [hentry] at h
          split at h
          · rename_i hlink
            cases h
            exact .link hname hentry hlink.1 hlink.2
          · rename_i hfollow
            obtain ⟨left, rfl, hwalks⟩ := (hjump ..).mp h
            exact .follow hname hentry hfollow hwalks
        | file text modified =>
          simp only [hentry] at h
          split at h
          · rename_i hfile
            cases h
            exact .file hname hentry hfile
          · cases h
  · intro h
    induction segments generalizing here with
    | nil =>
      cases h
      rfl
    | cons name rest ih =>
      cases h with
      | stay hname h => rw [walkFrom, if_pos hname, ih h]
      | up h => rw [walkFrom, if_neg (by decide), if_pos rfl, ih h]
      | free hname hentry hending hrest =>
        rw [walkFrom_name hname, hentry]
        exact if_pos ⟨hending, hrest⟩
      | enter hname hentry h =>
        rw [walkFrom_name hname, hentry]
        exact ih h
      | follow hname hentry hrest h =>
        rw [walkFrom_name hname, hentry]
        simp only [if_neg hrest]
        exact (hjump ..).mpr ⟨_, rfl, h⟩
      | link hname hentry hending hrest =>
        rw [walkFrom_name hname, hentry]
        exact if_pos ⟨hending, hrest⟩
      | file hname hentry hrest =>
        rw [walkFrom_name hname, hentry]
        exact if_pos hrest

/-- A walk has a result exactly if the rules derive it. -/
theorem walk_eq_ok_iff :
    d.walk ending links here segments = .ok destination ↔
      Walks d ending links here segments destination := by
  induction links generalizing here segments destination with
  | zero =>
    rw [walk]
    exact walkFrom_eq_ok_iff (by simp)
  | succ links ih =>
    rw [walk]
    refine walkFrom_eq_ok_iff fun here target rest destination => ?_
    simp only [ih, Nat.add_right_cancel_iff, exists_eq_left']
    rfl

theorem Walks.unique {destination' : Destination}
    (h : Walks d ending links here segments destination)
    (h' : Walks d ending links here segments destination') : destination = destination' :=
  Except.ok.inj ((walk_eq_ok_iff.mpr h).symm.trans (walk_eq_ok_iff.mpr h'))

/-! ## Where walks lead -/

/-- Every place on the way to a place, and the place itself, is a directory. -/
def Reached (d : Disk) (here : Place) : Prop :=
  ∀ place, place <+: here → ∃ modified, d.entry? place = some (.directory modified)

/-- All names on the way to a place are names, and none holds a separator. -/
def IsPlace (place : Place) : Prop :=
  ∀ name ∈ place, IsName name ∧ '/' ∉ name.toList

/-- The working directory is there. -/
structure Settled (d : Disk) : Prop where
  reached : d.Reached d.workingDirectory
  isPlace : IsPlace d.workingDirectory

theorem reached_nil (d : Disk) : d.Reached [] := by
  intro place hplace
  rw [List.prefix_nil.mp hplace]
  exact ⟨d.now, rfl⟩

theorem Reached.dropLast (h : d.Reached here) : d.Reached here.dropLast :=
  fun place hplace => h place (hplace.trans here.dropLast_prefix)

theorem Reached.concat {modified : Instant} (h : d.Reached here)
    (hentry : d.entry? (here ++ [name]) = some (.directory modified)) :
    d.Reached (here ++ [name]) := by
  intro place hplace
  rcases List.prefix_concat_iff.mp hplace with rfl | hplace
  · exact ⟨modified, hentry⟩
  · exact h place hplace

theorem Reached.linkBase (h : d.Reached here) (target : String) :
    d.Reached (linkBase here target) := by
  unfold Disk.linkBase
  split
  · exact d.reached_nil
  · exact h

/-- Where a walk that starts at a directory can end. -/
inductive Arrived (d : Disk) : Destination → Prop
  | directory {place : Place} {modified : Instant} (h : d.Reached place)
      (hentry : d.entry? place = some (.directory modified)) :
      Arrived d (.taken place (.directory modified))
  | entry {parent : Place} {name : String} {entry : Entry} (h : d.Reached parent)
      (hname : IsName name) (hentry : d.entry? (parent ++ [name]) = some entry) :
      Arrived d (.taken (parent ++ [name]) entry)
  | free {parent : Place} {name : String} (h : d.Reached parent)
      (hentry : d.entry? (parent ++ [name]) = none) : Arrived d (.free (parent ++ [name]))

theorem Walks.arrived (h : Walks d ending links here segments destination)
    (hhere : d.Reached here) : d.Arrived destination := by
  induction h with
  | stop links here =>
    obtain ⟨modified, hentry⟩ := hhere here List.prefix_rfl
    rw [hentry]
    exact .directory hhere hentry
  | stay _ _ ih => exact ih hhere
  | up _ ih => exact ih hhere.dropLast
  | free _ hentry => exact .free hhere hentry
  | enter _ hentry _ ih => exact ih (hhere.concat hentry)
  | follow _ _ _ _ ih => exact ih (hhere.linkBase _)
  | link hname hentry => exact .entry hhere hname.isName hentry
  | file hname hentry => exact .entry hhere hname.isName hentry

theorem slash_not_mem_of_mem_segmentsOf {p : Path} {segment : String}
    (h : segment ∈ segmentsOf p) : '/' ∉ segment.toList := by
  obtain ⟨piece, hpiece, rfl⟩ := List.mem_map.mp h
  rw [String.toList_ofList]
  unfold Path.segments at hpiece
  split at hpiece <;> exact Text.not_mem_of_mem_splitOn hpiece

/-- The place at the end of a walk. -/
def Destination.place : Destination → Place
  | .taken place _ => place
  | .free place => place

theorem Walks.isPlace (h : Walks d ending links here segments destination) (hhere : IsPlace here)
    (hsegments : ∀ segment ∈ segments, '/' ∉ segment.toList) :
    IsPlace (Destination.place destination) := by
  have hconcat : ∀ {here : Place} {name : String} {rest : List String} {ending : Ending},
      IsPlace here → LooksUp ending name rest → (∀ segment ∈ name :: rest, '/' ∉ segment.toList) →
      IsPlace (here ++ [name]) := by
    intro here name rest ending hhere hname hsegments other hother
    rcases List.mem_append.mp hother with hother | hother
    · exact hhere other hother
    · rw [List.mem_singleton.mp hother]
      exact ⟨hname.isName, hsegments name List.mem_cons_self⟩
  induction h with
  | stop links here => exact hhere
  | stay _ _ ih => exact ih hhere fun s hs => hsegments s (List.mem_cons_of_mem _ hs)
  | up _ ih =>
    exact ih (fun s hs => hhere s ((List.dropLast_sublist _).mem hs))
      fun s hs => hsegments s (List.mem_cons_of_mem _ hs)
  | free hname => exact hconcat hhere hname hsegments
  | enter hname _ _ ih =>
    exact ih (hconcat hhere hname hsegments) fun s hs => hsegments s (List.mem_cons_of_mem _ hs)
  | follow _ _ _ _ ih =>
    refine ih ?_ fun s hs => ?_
    · unfold linkBase
      split
      · intro name hname
        cases hname
      · exact hhere
    · rcases List.mem_append.mp hs with hs | hs
      · exact slash_not_mem_of_mem_segmentsOf hs
      · exact hsegments s (List.mem_cons_of_mem _ hs)
  | link hname => exact hconcat hhere hname hsegments
  | file hname => exact hconcat hhere hname hsegments

/-! ## Walks over walks -/

theorem not_isEnd_append {tail : List String} (h : ¬ isEnd tail) : ¬ isEnd (rest ++ tail) := by
  unfold isEnd at h ⊢
  rw [List.all_append, Bool.and_eq_true]
  exact fun hend => h hend.2

theorem LooksUp.append {tail : List String} {ending' : Ending} (h : LooksUp ending name rest)
    (htail : ¬ isEnd tail) : LooksUp ending' name (rest ++ tail) :=
  ⟨h.isName, fun hfile => not_isEnd_append htail hfile.2.2, h.short⟩

theorem LooksUp.of_ne_file {ending' : Ending} (h : LooksUp ending name rest)
    (hne : ending' ≠ .file) : LooksUp ending' name rest :=
  ⟨h.isName, fun hfile => hne hfile.1, h.short⟩

/-- A walk goes on from the directory to which its first segments lead. -/
theorem Walks.append {dir : Place} {modified : Instant}
    (h : Walks d .entry links here segments (.taken dir (.directory modified))) :
    ∃ left, ∀ {ending : Ending} {tail : List String} {destination : Destination}, ¬ isEnd tail →
      Walks d ending left dir tail destination →
      Walks d ending links here (segments ++ tail) destination := by
  generalize hdestination : Destination.taken dir (.directory modified) = destination at h
  induction h with
  | stop links here =>
    obtain ⟨rfl, -⟩ := Destination.taken.inj hdestination
    exact ⟨links, fun _ h => h⟩
  | stay hname _ ih =>
    obtain ⟨left, hleft⟩ := ih hdestination
    exact ⟨left, fun htail h => .stay hname (hleft htail h)⟩
  | up _ ih =>
    obtain ⟨left, hleft⟩ := ih hdestination
    exact ⟨left, fun htail h => .up (hleft htail h)⟩
  | free => cases hdestination
  | enter hname hentry _ ih =>
    obtain ⟨left, hleft⟩ := ih hdestination
    exact ⟨left, fun htail h => .enter (hname.append htail) hentry (hleft htail h)⟩
  | follow hname hentry _ _ ih =>
    obtain ⟨left, hleft⟩ := ih hdestination
    refine ⟨left, fun htail h =>
      .follow (hname.append htail) hentry (fun hend => not_isEnd_append htail hend.2) ?_⟩
    have hrest := hleft htail h
    rwa [List.append_assoc] at hrest
  | link => cases hdestination
  | file => cases hdestination

/-- A walk that finds an entry through links finds one as well if the last link is not followed. -/
theorem Walks.name_of_entry {place : Place} {entry : Entry}
    (h : Walks d .entry links here segments (.taken place entry)) :
    ∃ place' entry', Walks d .name links here segments (.taken place' entry') := by
  generalize hdestination : Destination.taken place entry = destination at h
  induction h with
  | stop links here => exact ⟨_, _, .stop links here⟩
  | stay hname _ ih =>
    obtain ⟨place', entry', h⟩ := ih hdestination
    exact ⟨place', entry', .stay hname h⟩
  | up _ ih =>
    obtain ⟨place', entry', h⟩ := ih hdestination
    exact ⟨place', entry', .up h⟩
  | free => cases hdestination
  | enter hname hentry _ ih =>
    obtain ⟨place', entry', h⟩ := ih hdestination
    exact ⟨place', entry', .enter (hname.of_ne_file (by decide)) hentry h⟩
  | @follow _ _ _ rest _ _ hname hentry _ _ ih =>
    by_cases hrest : isEnd rest
    · exact ⟨_, _, .link (hname.of_ne_file (by decide)) hentry rfl hrest⟩
    · obtain ⟨place', entry', h⟩ := ih hdestination
      exact ⟨place', entry',
        .follow (hname.of_ne_file (by decide)) hentry (fun h => hrest h.2) h⟩
  | link _ _ hending => cases hending
  | file hname hentry hrest =>
    rcases hrest with hrest | hrest
    · exact ⟨_, _, .file (hname.of_ne_file (by decide)) hentry (Or.inl hrest)⟩
    · cases hrest.1

/-- A walk to a file ends at the last segment, unless that segment names a link. -/
theorem Walks.link_or_getLast? {place : Place} {text : Option String} {modified : Instant}
    (h : Walks d .entry links here segments (.taken place (.file text modified)))
    (hhere : d.Reached here) :
    (∃ place' target, Walks d .name links here segments (.taken place' (.link target))) ∨
      ∃ last, IsName last ∧ segments.getLast? = some last ∧ place.getLast? = some last := by
  generalize hdestination : Destination.taken place (.file text modified) = destination at h
  have hcons : ∀ {name last : String} {rest : List String}, rest.getLast? = some last →
      (name :: rest).getLast? = some last := by
    intro name last rest hlast
    rw [List.getLast?_cons, hlast, Option.getD_some]
  induction h with
  | stop links here =>
    obtain ⟨m, hentry⟩ := hhere here List.prefix_rfl
    rw [hentry] at hdestination
    cases hdestination
  | stay hname _ ih =>
    rcases ih hhere hdestination with ⟨place', target, h⟩ | ⟨last, hlast, hsegments, hplace⟩
    · exact Or.inl ⟨place', target, .stay hname h⟩
    · exact Or.inr ⟨last, hlast, hcons hsegments, hplace⟩
  | up _ ih =>
    rcases ih hhere.dropLast hdestination with
      ⟨place', target, h⟩ | ⟨last, hlast, hsegments, hplace⟩
    · exact Or.inl ⟨place', target, .up h⟩
    · exact Or.inr ⟨last, hlast, hcons hsegments, hplace⟩
  | free => cases hdestination
  | enter hname hentry _ ih =>
    rcases ih (hhere.concat hentry) hdestination with
      ⟨place', target, h⟩ | ⟨last, hlast, hsegments, hplace⟩
    · exact Or.inl ⟨place', target, .enter (hname.of_ne_file (by decide)) hentry h⟩
    · exact Or.inr ⟨last, hlast, hcons hsegments, hplace⟩
  | @follow _ _ _ rest _ _ hname hentry _ _ ih =>
    by_cases hrest : isEnd rest
    · exact Or.inl ⟨_, _, .link (hname.of_ne_file (by decide)) hentry rfl hrest⟩
    · rcases ih (hhere.linkBase _) hdestination with
        ⟨place', target, h⟩ | ⟨last, hlast, hsegments, hplace⟩
      · exact Or.inl ⟨place', target,
          .follow (hname.of_ne_file (by decide)) hentry (fun h => hrest h.2) h⟩
      · -- Segments are left behind the link, so the last one is the path's own.
        have hne : rest ≠ [] := by
          rintro rfl
          exact hrest rfl
        rw [List.getLast?_append, List.getLast?_eq_some_getLast hne, Option.some_or,
          ← List.getLast?_eq_some_getLast hne] at hsegments
        exact Or.inr ⟨last, hlast, hcons hsegments, hplace⟩
  | link _ _ hending => cases hending
  | @file _ _ name _ _ _ hname hentry hrest =>
    rcases hrest with rfl | hrest
    · cases hdestination
      exact Or.inr ⟨name, hname.isName, rfl, List.getLast?_concat⟩
    · cases hrest.1

end RoutineLoader.Disk
