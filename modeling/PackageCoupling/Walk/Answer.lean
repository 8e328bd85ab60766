namespace PackageCoupling

inductive Answer where
  | descend
  | skip
  | stop
deriving DecidableEq, Repr, Inhabited

namespace Answer

-- Of two answers the one that lets the walk do more: descending beats skipping the children, and
-- skipping beats stopping.
def merge : Answer → Answer → Answer
  | descend, _ | _, descend => descend
  | skip, _    | _, skip    => skip
  | stop, stop              => stop

-- The answer of a whole group. A group without members descends.
def mergeAll : List Answer → Answer
  | []      => descend
  | a :: as => as.foldl merge a

def running : List Answer → List Answer
  | []      => []
  | a :: as => go a as
where
  go (a : Answer) : List Answer → List Answer
    | []      => [a]
    | b :: bs => a :: go (a.merge b) bs

theorem merge_comm (a b : Answer) : a.merge b = b.merge a := by
  cases a <;> cases b <;> rfl

theorem merge_assoc (a b c : Answer) : (a.merge b).merge c = a.merge (b.merge c) := by
  cases a <;> cases b <;> cases c <;> rfl

end Answer
end PackageCoupling
