import CheckHarness.LineStore.Checker
import CheckHarness.LineStore.Service

namespace CheckHarness.LineStore

namespace Contents

/-- What the store holds after a task. -/
def after (contents : Contents) (task : Task) : Contents :=
  match exchange task with
  | .ok exchange => (Service.respond contents exchange.request.line).2
  | .error _ => contents

/-- What the store does with a connection. -/
def peer (contents : Contents) (line : Bytes) : Peer :=
  .answers (Service.respond contents line).1 false

end Contents

/-- The report of a task that is performed against a store with the given contents. -/
def report (options : ConnectOptions) (contents : Contents) (task : Task) : Report :=
  ((checker options 0 fun _ _ line => contents.peer line).perform task).report

/-- The reports of a session: tasks that are performed one after the other against one store.
Nothing is lost on the way and nobody is cancelled. -/
def reports (options : ConnectOptions) : Contents → List Task → List Report
  | _, [] => []
  | contents, task :: tasks =>
    report options contents task :: reports options (contents.after task) tasks

end CheckHarness.LineStore
