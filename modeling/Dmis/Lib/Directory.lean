import Mathlib.Data.List.Basic

/-!
# Directories

A directory maps file names to contents. `puts` writes files one after the other, `removes` deletes names; a name
then holds what was written to it last (`puts_apply`), or nothing (`removes_apply`).
-/

namespace Files

variable {κ : Type}

/-- The files of a directory. -/
abbrev Dir (κ : Type) := String → Option κ

namespace Dir

/-- Create a file, or overwrite it. -/
def put (dir : Dir κ) (name : String) (content : κ) : Dir κ := fun n => if n = name then some content else dir n

def remove (dir : Dir κ) (name : String) : Dir κ := fun n => if n = name then none else dir n

def puts (dir : Dir κ) (files : List (String × κ)) : Dir κ := files.foldl (fun d f => d.put f.1 f.2) dir

def removes (dir : Dir κ) (names : List String) : Dir κ := names.foldl remove dir

end Dir

/-- What the last of the writes to a name wrote. -/
def lastWrite (files : List (String × κ)) (n : String) : Option κ := (files.reverse.find? fun f => f.1 = n).map Prod.snd

theorem lastWrite_cons (f : String × κ) (files : List (String × κ)) (n : String) :
    lastWrite (f :: files) n = (lastWrite files n).or (if n = f.1 then some f.2 else none) := by
  simp only [lastWrite, List.reverse_cons, List.find?_append]
  cases files.reverse.find? fun f => decide (f.1 = n) with
  | some g => rfl
  | none =>
    by_cases h : n = f.1
    · simp [h]
    · simp [h, Ne.symm h]

theorem puts_apply (files : List (String × κ)) (dir : Dir κ) (n : String) :
    dir.puts files n = (lastWrite files n).or (dir n) := by
  induction files generalizing dir with
  | nil => rfl
  | cons f files ih =>
    show (dir.put f.1 f.2).puts files n = _
    rw [ih, lastWrite_cons, Option.or_assoc]
    congr 1
    unfold Dir.put
    split_ifs <;> rfl

theorem removes_apply (names : List String) (dir : Dir κ) (n : String) :
    dir.removes names n = if n ∈ names then none else dir n := by
  induction names generalizing dir with
  | nil => simp [Dir.removes]
  | cons a names ih =>
    show (dir.remove a).removes names n = _
    rw [ih]
    unfold Dir.remove
    by_cases hn : n ∈ names
    · simp [hn]
    · by_cases ha : n = a
      · simp [ha]
      · simp [hn, ha]

theorem lastWrite_isSome {files : List (String × κ)} {n : String} :
    (lastWrite files n).isSome ↔ n ∈ files.map Prod.fst := by
  induction files with
  | nil => simp [lastWrite]
  | cons f files ih =>
    rw [lastWrite_cons, List.map_cons, List.mem_cons, ← ih]
    by_cases h : n = f.1
    · simp [h]
    · simp [h]

/-- With distinct names every file is the last of its name. -/
theorem lastWrite_of_nodup {files : List (String × κ)} (hn : (files.map Prod.fst).Nodup) {f : String × κ}
    (hf : f ∈ files) : lastWrite files f.1 = some f.2 := by
  induction files with
  | nil => simp at hf
  | cons g files ih =>
    rw [List.map_cons, List.nodup_cons] at hn
    rw [lastWrite_cons]
    rcases List.mem_cons.1 hf with rfl | hf
    · have hnone : lastWrite files f.1 = none := by
        rw [← Option.not_isSome_iff_eq_none, lastWrite_isSome]
        exact hn.1
      simp [hnone]
    · rw [ih hn.2 hf]
      rfl

end Files
