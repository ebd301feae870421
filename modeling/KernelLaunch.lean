import KernelLaunch.Session
import KernelLaunch.Host.Broadcast
import KernelLaunch.Host.NumberType
import KernelLaunch.Host.Product
import KernelLaunch.Proofs.Action
import KernelLaunch.Proofs.Backend.Recording
import KernelLaunch.Proofs.Kernel.Build
import KernelLaunch.Proofs.Kernel.Launch
import KernelLaunch.Proofs.Kernel.Exchanges
import KernelLaunch.Proofs.Kernel.Life
import KernelLaunch.Proofs.Kernel.DeviceIdentity
import KernelLaunch.Proofs.Backend.Ledger
import KernelLaunch.Proofs.Kernel.Ensemble
import KernelLaunch.Proofs.Kernel.SharedPrograms
import KernelLaunch.Proofs.Source.Directive
import KernelLaunch.Proofs.Source.DirectiveLines
import KernelLaunch.Proofs.Source.Declared
import KernelLaunch.Proofs.Source.Extraction
import KernelLaunch.Proofs.Except
import KernelLaunch.Proofs.Kernel.Stages
import KernelLaunch.Proofs.Kernel.Limits
import KernelLaunch.Proofs.Host.Collect
import KernelLaunch.Proofs.Kernel.Arguments
import KernelLaunch.Proofs.Backend.ByValue
import KernelLaunch.Proofs.Kernel.InPlace
import KernelLaunch.Proofs.Signature.Marks
import KernelLaunch.Proofs.Signature.Sizes
import KernelLaunch.Proofs.Signature.Declared
import KernelLaunch.Proofs.Signature.Width
import KernelLaunch.Proofs.Signature.Named
import KernelLaunch.Proofs.Signature.UserTypes
import KernelLaunch.Proofs.Backend.NativeByValue
import KernelLaunch.Proofs.Geometry.Assignments
import KernelLaunch.Proofs.Kernel.LaunchSizes
import KernelLaunch.Proofs.Kernel.NativeArguments
import KernelLaunch.Proofs.Backend.Homes
import KernelLaunch.Proofs.Backend.LastWriter
import KernelLaunch.Proofs.Backend.WriteBack
import KernelLaunch.Proofs.Geometry.Reachable
import KernelLaunch.Proofs.Geometry.GlobalSizes
import KernelLaunch.Proofs.Device.Queries
import KernelLaunch.Proofs.Device.Selection
import KernelLaunch.Proofs.Device.FailedSelection
import KernelLaunch.Proofs.Device.Listing
import KernelLaunch.Proofs.Kernel.FailedCalls
import KernelLaunch.Proofs.Kernel.Commons
import KernelLaunch.Proofs.Kernel.Handles
import KernelLaunch.Proofs.Backend.Settled
import KernelLaunch.Proofs.Kernel.Crowd
import KernelLaunch.Proofs.Signature.Nameless
import KernelLaunch.Proofs.Signature.Parts
import KernelLaunch.Proofs.Signature.NestedSizes
import KernelLaunch.Proofs.Source.Scanner
import KernelLaunch.Proofs.Source.CommentBody
import KernelLaunch.Proofs.Source.Literal
import KernelLaunch.Proofs.Source.Removal
import KernelLaunch.Proofs.Source.ParameterList
import KernelLaunch.Proofs.Signature.Joined
import KernelLaunch.Proofs.Source.Found
import KernelLaunch.Proofs.Kernel.Printed
import KernelLaunch.Proofs.Kernel.TypeDefinitions
import KernelLaunch.Proofs.Kernel.Echo
import KernelLaunch.Proofs.Kernel.ChangeOrder
import KernelLaunch.Proofs.Kernel.OutputShapes
import KernelLaunch.Proofs.Backend.Transfers
import KernelLaunch.Proofs.Kernel.Retrying
import KernelLaunch.Proofs.Kernel.Reread
