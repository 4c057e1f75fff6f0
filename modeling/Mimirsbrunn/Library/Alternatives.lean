import Mimirsbrunn.Library.Client

namespace Client

variable {Req Resp ε α : Type}

-- The second is tried where the first one declines, and what both say is kept when both do.
def orElse (c c' : Client Req Resp (Except (List ε) α)) : Client Req Resp (Except (List ε) α) :=
  c.bind fun
    | .ok a => .done (.ok a)
    | .error es => c'.bind fun
        | .ok a => .done (.ok a)
        | .error es' => .done (.error (es ++ es'))

def firstOf : List (Client Req Resp (Except (List ε) α)) → Client Req Resp (Except (List ε) α)
  | [] => .done (.error [])
  | c :: cs => cs.foldl orElse c

def declines (es : List ε) : Client Req Resp (Except (List ε) α) := .done (.error es)

def amid (before after : List ε) : Except (List ε) α → Client Req Resp (Except (List ε) α)
  | .ok a => .done (.ok a)
  | .error es => .done (.error (before ++ es ++ after))

theorem bind_amid (c : Client Req Resp (Except (List ε) α)) (b a b' a' : List ε) :
    (c.bind (amid b a)).bind (amid b' a') = c.bind (amid (b' ++ b) (a ++ a')) := by
  rw [bind_assoc]
  congr 1
  funext x
  cases x with
  | ok y => rfl
  | error es => simp [amid, bind]

theorem declines_orElse (es : List ε) (c : Client Req Resp (Except (List ε) α)) :
    (declines es).orElse c = c.bind (amid es []) := by
  simp only [orElse, declines, bind]
  congr 1
  funext x
  cases x with
  | ok y => rfl
  | error es' => simp [amid]

theorem orElse_declines (c : Client Req Resp (Except (List ε) α)) (es : List ε) :
    c.orElse (declines es) = c.bind (amid [] es) := by
  rw [orElse]
  congr 1

theorem bind_amid_nil (c : Client Req Resp (Except (List ε) α)) : c.bind (amid [] []) = c := by
  induction c with
  | done x =>
      cases x with
      | ok y => rfl
      | error es => simp [bind, amid]
  | call r k ih => exact congrArg (Client.call r) (funext ih)
  | fan w ok pending answers k ih =>
      exact congrArg (Client.fan w ok pending answers) (funext ih)

end Client
