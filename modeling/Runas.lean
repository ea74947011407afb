import Runas.Interaction.Program
import Runas.Interaction.Safety
import Runas.Interaction.Parallel
import Runas.Interaction.Trace
import Runas.Interaction.Footprint
import Runas.Interaction.Alone
import Runas.Interaction.Past
import Runas.Interaction.Play
import Runas.Interaction.Total
import Runas.Interaction.Rounds
import Runas.Interaction.Course
import Runas.Interaction.Coupling
import Runas.Interaction.Memory
import Runas.Text
import Runas.Words
import Runas.Substitution
import Runas.Shared
import Runas.System
import Runas.User
import Runas.ForkSync
import Runas.SignalRecv
import Runas.FgHandler
import Runas.Env
import Runas.Proc
import Runas.Passwd
import Runas.Editing
import Runas.Console
import Runas.LineEditor
import Runas.Answers
import Runas.HelperRun
import Runas.HelperLoop
import Runas.HelperOutput
import Runas.SecretBuffer
import Runas.Pam
import Runas.Shadow
import Runas.Auth
import Runas.Main
import Runas.ShadowGate
import Runas.Aging
import Runas.Topics
import Runas.Verifier
import Runas.PamGate
import Runas.Requests
import Runas.NoPrompt
import Runas.PamLife
import Runas.Getopt
import Runas.BackendIdentity
import Runas.Credentials
import Runas.Kernel
import Runas.Barrier
import Runas.Command
import Runas.BackendVector
import Runas.WorkingDirectory
import Runas.Separator
import Runas.Orphan
import Runas.Session
import Runas.ChildExit
import Runas.Supervision
import Runas.Overrides
import Runas.Precedence
import Runas.OverrideFormat
import Runas.Placeholders
import Runas.Launchable
import Runas.Cleaning
import Runas.PathSearch
import Runas.ConversationReply
import Runas.HandBack
import Runas.Membership
import Runas.JobControl
import Runas.PamMemory
import Runas.ResponseMemory
import Runas.EnvListMemory
import Runas.Settling
import Runas.Phases
import Runas.HelperChild
import Runas.Leash
import Runas.Mediation
import Runas.ExitStatus
import Runas.Interaction.View
import Runas.Descriptors
import Runas.PromptDescriptors
import Runas.Station
import Runas.Transaction
import Runas.Disclosure
import Runas.Confinement
