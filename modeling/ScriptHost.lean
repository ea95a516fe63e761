import ScriptHost.Machine.Shown
import ScriptHost.Main
import ScriptHost.Proofs.CaseOfNames
import ScriptHost.Proofs.Courses
import ScriptHost.Proofs.Decimals
import ScriptHost.Proofs.Declarations
import ScriptHost.Proofs.DescentProgress
import ScriptHost.Proofs.Drains
import ScriptHost.Proofs.ErrorLines
import ScriptHost.Proofs.EventCalls
import ScriptHost.Proofs.EventTexts
import ScriptHost.Proofs.Finality
import ScriptHost.Proofs.Limits
import ScriptHost.Proofs.LoopSessions
import ScriptHost.Proofs.NameResolution
import ScriptHost.Proofs.NativeSides
import ScriptHost.Proofs.OutsideCalls
import ScriptHost.Proofs.Pools
import ScriptHost.Proofs.Recognition
import ScriptHost.Proofs.Refusals
import ScriptHost.Proofs.Results
import ScriptHost.Proofs.ScriptInterface
import ScriptHost.Proofs.Settlement
import ScriptHost.Proofs.Spelling
import ScriptHost.Proofs.StackBounds
import ScriptHost.Proofs.Statuses
import ScriptHost.Proofs.TableAgreement
import ScriptHost.Proofs.Termination
import ScriptHost.Proofs.Units
import ScriptHost.Proofs.WindowRuns
